import ChatInference.Json.Record

/-!
Limits of the service: sessions, concurrency, and the queue with its thresholds. Values out of
range keep their defaults, and thresholds are taken only if they are in order.
-/

namespace ChatInference

namespace Config

/-- The value when it lies between the bounds, else the default. -/
def natIn (lo hi default : Nat) : Option Int → Nat
  | some v => if (lo : Int) ≤ v ∧ v ≤ hi then v.toNat else default
  | none => default

section natIn

variable {lo hi default : Nat}

theorem natIn_mem (hlo : lo ≤ default) (hhi : default ≤ hi) (v : Option Int) :
    lo ≤ natIn lo hi default v ∧ natIn lo hi default v ≤ hi := by
  cases v with
  | none => exact ⟨hlo, hhi⟩
  | some v =>
    unfold natIn
    dsimp only
    split <;> omega

theorem natIn_of_mem {n : Nat} (h : lo ≤ n ∧ n ≤ hi) :
    natIn lo hi default (some (n : Int)) = n := by
  have hn : (lo : Int) ≤ n ∧ (n : Int) ≤ hi := by omega
  exact if_pos hn

end natIn

end Config

structure Limits where
  maxSessions : Nat := 100
  idleTimeoutMs : Nat := 300000
  autoCleanup : Bool := true
  maxConcurrent : Nat := 8
  queueSize : Nat := 50
  taskTimeoutMs : Nat := 30000
  priorityScheduling : Bool := true
  fairScheduling : Bool := false
  autoQueueCleanup : Bool := true
  queueWarning : Nat := 40
  queueReject : Nat := 50
  deriving DecidableEq, Inhabited

namespace Limits

/-- The entries of the section as they were given. -/
structure Given where
  maxSessions : Option Int := none
  idleTimeoutMs : Option Int := none
  autoCleanup : Option Bool := none
  maxConcurrent : Option Int := none
  queueSize : Option Int := none
  taskTimeoutMs : Option Int := none
  priorityScheduling : Option Bool := none
  fairScheduling : Option Bool := none
  autoQueueCleanup : Option Bool := none
  queueWarning : Option Int := none
  queueReject : Option Int := none

def keys : List String :=
  ["max_sessions", "idle_timeout_ms", "auto_cleanup", "max_concurrent", "queue_size",
    "default_task_timeout_ms", "priority_scheduling_enabled", "fair_scheduling_enabled",
    "auto_queue_cleanup", "queue_warning_threshold", "queue_reject_threshold"]

def Given.read? (v : Json) : Option Given := do
  let es ← v.entries? keys
  return {
    maxSessions := ← es.read "max_sessions" Json.int64?
    idleTimeoutMs := ← es.read "idle_timeout_ms" Json.int64?
    autoCleanup := ← es.read "auto_cleanup" Json.bool?
    maxConcurrent := ← es.read "max_concurrent" Json.int64?
    queueSize := ← es.read "queue_size" Json.int64?
    taskTimeoutMs := ← es.read "default_task_timeout_ms" Json.int64?
    priorityScheduling := ← es.read "priority_scheduling_enabled" Json.bool?
    fairScheduling := ← es.read "fair_scheduling_enabled" Json.bool?
    autoQueueCleanup := ← es.read "auto_queue_cleanup" Json.bool?
    queueWarning := ← es.read "queue_warning_threshold" Json.int64?
    queueReject := ← es.read "queue_reject_threshold" Json.int64? }

/-- Size, warning and rejection thresholds of a queue. -/
structure Thresholds where
  size : Nat := 50
  warning : Nat := 40
  reject : Nat := 50

def Thresholds.InOrder (t : Thresholds) : Prop :=
  t.warning ≤ t.reject ∧ t.reject ≤ t.size ∧ 0 < t.reject

instance (t : Thresholds) : Decidable t.InOrder := by
  unfold Thresholds.InOrder; infer_instance

/-- A given size moves both thresholds along. -/
def Thresholds.ofSize : Option Int → Thresholds
  | none => {}
  | some v =>
    let size := Config.natIn 1 10000 50 (some v)
    ⟨size, min 40 (size * 4 / 5), size⟩

/-- Given thresholds count together: both are kept as they were when the result is out of order. -/
def Thresholds.given (t : Thresholds) (warning reject : Option Int) : Thresholds :=
  let t' : Thresholds :=
    ⟨t.size, (warning.map Int.toNat).getD t.warning, (reject.map Int.toNat).getD t.reject⟩
  if t'.InOrder then t' else t

def ofGiven (g : Given) : Limits :=
  let queue := (Thresholds.ofSize g.queueSize).given g.queueWarning g.queueReject
  { maxSessions := Config.natIn 1 10000 100 g.maxSessions
    idleTimeoutMs := Config.natIn 1000 86400000 300000 g.idleTimeoutMs
    autoCleanup := g.autoCleanup.getD true
    maxConcurrent := Config.natIn 1 256 8 g.maxConcurrent
    queueSize := queue.size
    taskTimeoutMs := Config.natIn 1000 600000 30000 g.taskTimeoutMs
    priorityScheduling := g.priorityScheduling.getD true
    fairScheduling := g.fairScheduling.getD false
    autoQueueCleanup := g.autoQueueCleanup.getD true
    queueWarning := queue.warning
    queueReject := queue.reject }

end Limits

end ChatInference
