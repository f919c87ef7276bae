import ChatInference.Json.Writer
import ChatInference.Model.Overrides
import ChatInference.Session.Table

/-!
The queue of turns that wait for a permit to compute. Three tiers are served in order, each first
in, first out; with fair scheduling the oldest task of another session than the one served last goes
first within its tier. Tasks past their deadline are answered and not served. Time is in milliseconds.
-/

namespace ChatInference

/-- Ids are numbers without an end. What words of 64 bits do past their last one is left open. -/
abbrev TaskId := Nat

/-- What a turn comes to: the reply, or why there is none. -/
abbrev Outcome := Except Error String

structure Task where
  /-- Zero until the queue assigns an id. -/
  id : TaskId := 0
  session : SessionId
  priority : Priority := .normal
  createdAt : Nat := 0
  deadline : Nat
  prompt : String
  overrides : Overrides := {}
  /-- Which submitter the outcome goes to. -/
  ticket : Nat := 0
  deriving Inhabited

namespace Task

/-- The overrides of a turn set its priority too. -/
def withOverrides (t : Task) (o : Overrides) : Task :=
  { t with overrides := o, priority := o.priorityOrNormal }

def isExpired (t : Task) (now : Nat) : Bool := t.deadline < now

end Task

/-- An outcome on its way to the submitter of a task. -/
abbrev Answer := Task × Outcome

structure QueueRules where
  capacity : Nat
  priorities : Bool := true
  fair : Bool := false
  purgeOnEnqueue : Bool := true
  deriving DecidableEq, Inhabited

structure QueueCounters where
  submitted : Nat := 0
  completed : Nat := 0
  timedOut : Nat := 0
  rejected : Nat := 0
  cancelled : Nat := 0
  deriving DecidableEq, Inhabited

structure Queue where
  rules : QueueRules
  urgent : List Task := []
  normal : List Task := []
  low : List Task := []
  running : Bool := true
  nextId : TaskId := 1
  counters : QueueCounters := {}
  lastServed : Option SessionId := none
  deriving Inhabited

/-- A queue holds no more than its size and the threshold of rejection, and at least one task. -/
def Limits.queueRules (l : Limits) : QueueRules :=
  { capacity := max 1 (min l.queueSize l.queueReject)
    priorities := l.priorityScheduling
    fair := l.fairScheduling
    purgeOnEnqueue := l.autoQueueCleanup }

namespace Queue

def ofLimits (l : Limits) : Queue := { rules := l.queueRules }

def ofCapacity (n : Nat) : Queue :=
  ofLimits { queueSize := n, queueWarning := n, queueReject := n }

/-- All waiting tasks, tier by tier. -/
def waiting (q : Queue) : List Task := q.urgent ++ q.normal ++ q.low

def size (q : Queue) : Nat := q.urgent.length + q.normal.length + q.low.length

def count (q : Queue) (f : QueueCounters → QueueCounters) : Queue :=
  { q with counters := f q.counters }

/-- Keeps the tasks of all tiers that satisfy a condition. -/
def keep (q : Queue) (p : Task → Bool) : Queue :=
  { q with urgent := q.urgent.filter p, normal := q.normal.filter p, low := q.low.filter p }

def expiry (now : Nat) (t : Task) : Answer :=
  (t, .error (.timeout s!"task expired after {now - t.createdAt} ms in queue"))

/-- Answers and removes the tasks past their deadline. -/
def purge (q : Queue) (now : Nat) : List Answer × Queue :=
  let expired := q.waiting.filter (·.isExpired now)
  (expired.map (expiry now),
    (q.keep fun t => !t.isExpired now).count fun c =>
      { c with timedOut := c.timedOut + expired.length })

/-- An unset id becomes the next one; a chosen id moves the next one past it. -/
def assignId (q : Queue) (t : Task) : Task × Queue :=
  if t.id = 0 then ({ t with id := q.nextId }, { q with nextId := q.nextId + 1 })
  else (t, { q with nextId := max q.nextId (t.id + 1) })

/-- Without priorities every task is a normal one; urgency above normal short of urgent is too. -/
def push (q : Queue) (t : Task) : Queue :=
  match if q.rules.priorities then t.priority else .normal with
  | .urgent => { q with urgent := q.urgent ++ [t] }
  | .high | .normal => { q with normal := q.normal ++ [t] }
  | .low => { q with low := q.low ++ [t] }

def reject (q : Queue) (why : String) : Except Error TaskId × Queue :=
  (.error (.resourceExhausted why), q.count fun c => { c with rejected := c.rejected + 1 })

/-- Adds a task unless the queue is shut down or full; expired tasks may be removed first. -/
def enqueue (q : Queue) (now : Nat) (t : Task) : Except Error TaskId × List Answer × Queue :=
  let q := q.count fun c => { c with submitted := c.submitted + 1 }
  if q.running then
    let (answers, q) := if q.rules.purgeOnEnqueue then q.purge now else ([], q)
    if q.rules.capacity ≤ q.size then
      let (r, q) := q.reject s!"task queue full ({q.size}/{q.rules.capacity})"
      (r, answers, q)
    else
      let (t, q) := q.assignId t
      (.ok t.id, answers, q.push t)
  else
    let (r, q) := q.reject "task queue is shut down"
    (r, [], q)

/-- Takes the first task that satisfies a condition, else the first. -/
def takePreferred (p : Task → Bool) (tier : List Task) : Option (Task × List Task) :=
  match tier.findIdx? p with
  | some i => tier[i]?.map fun t => (t, tier.eraseIdx i)
  | none => tier.head?.map fun t => (t, tier.tail)

/-- Whether fair scheduling, if on, would serve a task now. -/
def prefers (q : Queue) (t : Task) : Bool :=
  match q.lastServed with
  | some last => !q.rules.fair || t.session != last
  | none => true

def serve (q : Queue) (t : Task) : Option Task × Queue :=
  (some t, { q with lastServed := some t.session })

/-- Takes the next task of the first tier that holds one. -/
def pop (q : Queue) : Option Task × Queue :=
  match takePreferred q.prefers q.urgent with
  | some (t, rest) => { q with urgent := rest }.serve t
  | none =>
    match takePreferred q.prefers q.normal with
    | some (t, rest) => { q with normal := rest }.serve t
    | none =>
      match takePreferred q.prefers q.low with
      | some (t, rest) => { q with low := rest }.serve t
      | none => (none, q)

/-- Takes the next task past no deadline, also from a queue that is shut down. -/
def tryDequeue (q : Queue) (now : Nat) : Option Task × List Answer × Queue :=
  let (answers, q) := q.purge now
  let (t, q) := q.pop
  (t, answers, q)

/-- One look of a waiting consumer at the queue; once it is shut down there is nothing to see. -/
def dequeue (q : Queue) (now : Nat) : Option Task × List Answer × Queue :=
  if q.running then q.tryDequeue now else (none, [], q)

/-- Counts a task that was taken and answered. -/
def markCompleted (q : Queue) : Queue := q.count fun c => { c with completed := c.completed + 1 }

/-- Counts a task that was taken and missed its deadline before it could run. -/
def markTimedOut (q : Queue) : Queue := q.count fun c => { c with timedOut := c.timedOut + 1 }

/-- Takes out the waiting tasks that satisfy a condition, and counts them as cancelled. -/
def withdraw (q : Queue) (p : Task → Bool) : List Task × Queue :=
  let gone := q.waiting.filter p
  (gone, (q.keep fun t => !p t).count fun c => { c with cancelled := c.cancelled + gone.length })

/-- Withdraws the tasks of an id. The last of them is handed back, the others are dropped. -/
def cancel (q : Queue) (id : TaskId) : Option Task × List Task × Queue :=
  let (gone, q) := q.withdraw fun t => t.id == id
  (gone.getLast?, gone.dropLast, q)

def cancelSession (q : Queue) (session : SessionId) : List Task × Queue :=
  q.withdraw fun t => t.session == session

def cancelled (t : Task) : Answer := (t, .error .cancelled)

/-- Ends the service of the queue; what still waits is answered. -/
def shutdown (q : Queue) : List Answer × Queue :=
  let (gone, q) := { q with running := false }.withdraw fun _ => true
  (gone.map cancelled, q)

/-- Accepted tasks without an outcome yet. -/
def active (q : Queue) : Nat :=
  q.counters.submitted -
    (q.counters.completed + q.counters.timedOut + q.counters.rejected + q.counters.cancelled)

def toJson (q : Queue) : Json :=
  .obj [("queued", .nat q.size), ("active", .nat q.active), ("capacity", .nat q.rules.capacity),
    ("urgent", .nat q.urgent.length), ("normal", .nat q.normal.length),
    ("low", .nat q.low.length), ("submitted", .nat q.counters.submitted),
    ("completed", .nat q.counters.completed), ("timed_out", .nat q.counters.timedOut),
    ("rejected", .nat q.counters.rejected), ("cancelled", .nat q.counters.cancelled)]

end Queue

end ChatInference
