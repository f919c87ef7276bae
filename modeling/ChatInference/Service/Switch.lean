import ChatInference.Engine.Basic
import ChatInference.Json.Writer
import ChatInference.Model.Merge

/-!
The model in use, and how another takes its place. A load that fails brings the model before back;
where that fails too, nothing is usable until the next load. One load runs at a time.
-/

namespace ChatInference

inductive ModelStatus where
  | empty
  | ready
  | switching
  /-- A load failed and the model before did not come back. -/
  | unstable
  deriving DecidableEq, Inhabited

def ModelStatus.name : ModelStatus → String
  | empty => "empty"
  | ready => "ready"
  | switching => "switching"
  | unstable => "unstable"

abbrev GraphId := Nat

structure ModelState where
  status : ModelStatus := .empty
  /-- The number of the last successful load. -/
  graph : GraphId := 0
  path : Option String := none
  name : String := ""
  version : String := ""
  architecture : String := ""
  description : String := ""
  vocabSize : Nat := 0
  contextLength : Nat := 0
  config : ModelConfig := .initial

namespace ModelState

/-- The number after another, among the 32-bit words but zero. -/
def nextGraph (graph : GraphId) : GraphId := max 1 ((graph + 1) % UInt32.size)

def refresh (s : ModelState) (path : String) (stamp : Option FileStamp) (d : ModelDescription)
    (config : ModelConfig) : ModelState :=
  { status := .ready
    graph := nextGraph s.graph
    path := some path
    name := modelName path
    version := fingerprint stamp
    architecture := d.architecture
    description := d.text
    vocabSize := d.vocabSize
    contextLength := d.contextLength
    config }

def toJson (s : ModelState) : Json :=
  .obj [("status", .str s.status.name), ("graph", .nat s.graph),
    ("path", Json.option .str s.path), ("name", .str s.name), ("version", .str s.version),
    ("architecture", .str s.architecture), ("description", .str s.description),
    ("vocab_size", .nat s.vocabSize), ("context_length", .nat s.contextLength)]

def noModel : Error := .runtime "no model loaded"

def noUsableModel : Error :=
  .unstable "no usable model after a failed switch; load a model first"

/-- The state, if there is a model to use. -/
def usable (s : ModelState) : Except Error ModelState :=
  match s.status with
  | .ready => .ok s
  | .unstable => .error noUsableModel
  | .empty | .switching => .error noModel

end ModelState

structure Switch (σ : Type) where
  engine : σ
  state : ModelState := {}
  /-- A load is running, and any other is refused. -/
  loading : Bool := false
  /-- The running load has the state to itself. -/
  exclusive : Bool := false

namespace Switch

variable {σ : Type}

/-- The state as it shows to others. -/
def snapshot (s : Switch σ) : ModelState :=
  if s.exclusive then { status := .switching } else s.state

def begin (s : Switch σ) : Except Error (Switch σ) :=
  if s.loading then .error .alreadyInProgress else .ok { s with loading := true }

def finish (s : Switch σ) : Switch σ := { s with loading := false, exclusive := false }

variable [InferenceEngine σ]

/-- Loads a model and makes it ready; a model that does not get ready is dropped. -/
def bringUp (e : σ) (path : String) (c : ModelConfig) :
    Except EngineError ModelDescription × σ :=
  match InferenceEngine.load e path c with
  | (.error err, e) => (.error err, e)
  | (.ok d, e) =>
    match InferenceEngine.start e c with
    | (.ok _, e) => (.ok d, e)
    | (.error err, e) => (.error err, InferenceEngine.unload e)

def refreshed (s : Switch σ) (e : σ) (path : String) (d : ModelDescription) (c : ModelConfig) :
    Except Error GraphId × Switch σ :=
  let state := s.state.refresh path (InferenceEngine.stamp e path) d c
  (.ok state.graph, { s with engine := e, state })

def firstLoad (s : Switch σ) (path : String) (text : Option String) :
    Except Error GraphId × Switch σ :=
  let c := ModelConfig.initial.mergeOrKeep text
  let e := InferenceEngine.unload (InferenceEngine.releaseSlots s.engine)
  match bringUp e path c with
  | (.ok d, e) => s.refreshed e path d c
  | (.error err, e) => (.error (.ofEngine err), { s with engine := e })

/-- Brings back the model that a failed load was to replace. -/
def restore (s : Switch σ) (e : σ) (err : EngineError) : Except Error GraphId × Switch σ :=
  let (r, e) := match s.state.path with
    | some path => bringUp e path s.state.config
    | none => (.error err, e)
  match r with
  | .ok _ =>
    (.error (.runtime s!"model switch failed ({err.message}); previous model restored"),
      { s with engine := e, state := { s.state with status := .ready } })
  | .error again =>
    (.error (.unstable
        s!"model switch failed ({err.message}) and restore failed ({again.message})"),
      { s with engine := e, state := { s.state with status := .unstable } })

def hotSwap (s : Switch σ) (path : String) (text : Option String) :
    Except Error GraphId × Switch σ :=
  let c := s.state.config.mergeOrKeep text
  let e := InferenceEngine.unload (KvCache.clear (InferenceEngine.releaseSlots s.engine))
  match bringUp e path c with
  | (.ok d, e) => s.refreshed e path d c
  | (.error err, e) => s.restore e err

/-- Whether a load has a model to replace, and so waits for the work that uses it. -/
def replaces (s : Switch σ) : Bool := s.state.status = .ready

/-- Puts another model in the place of the one in use, if there is one. -/
def replace (s : Switch σ) (path : String) (text : Option String) :
    Except Error GraphId × Switch σ :=
  if s.replaces then s.hotSwap path text else s.firstLoad path text

/-- Drops the model; loads go on counting. -/
def unload (s : Switch σ) : Switch σ :=
  { s with
    engine := InferenceEngine.unload (InferenceEngine.releaseSlots s.engine)
    state := { graph := s.state.graph } }

end Switch

namespace Drain

/-- The time between two looks at the work left, in milliseconds. -/
def period : Nat := 100

/-- What a load finds left of the work each time it looks, until nothing is left or the time is up.
The work at the `n`-th look is `work n`. -/
def looks (work : Nat → Nat) (timeout : Nat) : List Nat := go (timeout / period + 1) 0
where
  go : Nat → Nat → List Nat
    | 0, n => [work n]
    | left + 1, n =>
      if work n = 0 ∨ timeout ≤ n * period then [work n] else work n :: go left (n + 1)

end Drain

end ChatInference
