import ChatInference.Config.Document
import ChatInference.Queue.Basic

/-!
The bounds of a configuration. Whatever a text says, the numbers that come of it lie within their
bounds, and the thresholds of the queue are in order, so that the queue takes as many tasks as its
threshold of rejection says. No bound is narrower than it has to be: a configuration within bounds,
written out as a document, reads back as it was.
-/

namespace ChatInference

open Json (nat)

/-- The limits that can be asked for. -/
structure Limits.InBounds (l : Limits) : Prop where
  maxSessions : 1 ≤ l.maxSessions ∧ l.maxSessions ≤ 10000
  idleTimeoutMs : 1000 ≤ l.idleTimeoutMs ∧ l.idleTimeoutMs ≤ 86400000
  maxConcurrent : 1 ≤ l.maxConcurrent ∧ l.maxConcurrent ≤ 256
  queueSize : 1 ≤ l.queueSize ∧ l.queueSize ≤ 10000
  taskTimeoutMs : 1000 ≤ l.taskTimeoutMs ∧ l.taskTimeoutMs ≤ 600000
  thresholds : l.queueWarning ≤ l.queueReject ∧ l.queueReject ≤ l.queueSize ∧ 1 ≤ l.queueReject

/-- The memory policies that can be asked for. -/
structure MemoryPolicy.InBounds (m : MemoryPolicy) : Prop where
  maxCacheTokens : 1024 ≤ m.maxCacheTokens ∧ m.maxCacheTokens ≤ 1000000
  keepTokens : 64 ≤ m.keepTokens ∧ m.keepTokens ≤ 2048
  discardTokens : m.discardTokens ≤ UInt32.size - 1
  pressureThreshold : (0.5 ≤ m.pressureThreshold && m.pressureThreshold ≤ 0.95) = true
  maxMemoryMb : m.maxMemoryMb = 0 ∨ 128 ≤ m.maxMemoryMb ∧ m.maxMemoryMb ≤ 32768

/-- A log has a file with a name to see, or none. -/
structure Logging.InBounds (l : Logging) : Prop where
  file : ∀ f ∈ l.file, (Text.supplied? (some f)).isSome = true

structure Performance.InBounds (p : Performance) : Prop where
  batchSize : 1 ≤ p.batchSize ∧ p.batchSize ≤ 2048

structure ServiceConfig.InBounds (c : ServiceConfig) : Prop where
  limits : c.limits.InBounds
  memory : c.memory.InBounds
  logging : c.logging.InBounds
  performance : c.performance.InBounds

open Config

/-- A number within the signed 64-bit words is read as it was written. -/
theorem Json.read_nat {es : Json.Entries} {key : String} {n : Nat} (hes : es key = some (nat n))
    (hn : n < 0x8000000000000000) : es.read key Json.int64? = some (some (n : Int)) := by
  have hword : (-0x8000000000000000 : Int) ≤ n ∧ (n : Int) ≤ 0x7fffffffffffffff := by omega
  unfold Json.Entries.read
  rw [hes]
  exact congrArg (Option.map some) (if_pos hword)

/-- A text that is written where there is one, and null where there is none, is read as it was. -/
theorem Json.read_option {α : Type} {es : Json.Entries} {key : String} {f : α → String} {v : Option α}
    (hes : es key = some (Json.option (fun a => .str (f a)) v)) :
    es.read key Json.str? = some (v.map f) := by
  unfold Json.Entries.read
  rw [hes]
  cases v <;> rfl

namespace Limits

theorem inOrder_ofSize (v : Option Int) : (Thresholds.ofSize v).InOrder := by
  cases v with
  | none => decide
  | some v =>
    have hsize : 1 ≤ natIn 1 10000 50 (some v) ∧ natIn 1 10000 50 (some v) ≤ 10000 :=
      natIn_mem (by decide) (by decide) (some v)
    refine ⟨?_, Nat.le_refl _, hsize.1⟩
    dsimp only [Thresholds.ofSize]
    omega

theorem inOrder_given {t : Thresholds} (h : t.InOrder) (warning reject : Option Int) :
    (t.given warning reject).InOrder := by
  unfold Thresholds.given
  dsimp only
  split
  case isTrue hnew => exact hnew
  case isFalse => exact h

theorem size_given (t : Thresholds) (warning reject : Option Int) :
    (t.given warning reject).size = t.size := by
  unfold Thresholds.given
  dsimp only
  split <;> rfl

theorem size_ofSize (v : Option Int) :
    1 ≤ (Thresholds.ofSize v).size ∧ (Thresholds.ofSize v).size ≤ 10000 := by
  cases v with
  | none => decide
  | some v => exact natIn_mem (by decide) (by decide) (some v)

theorem inBounds_ofGiven (g : Given) : (ofGiven g).InBounds where
  maxSessions := natIn_mem (by decide) (by decide) _
  idleTimeoutMs := natIn_mem (by decide) (by decide) _
  maxConcurrent := natIn_mem (by decide) (by decide) _
  queueSize := by
    dsimp only [ofGiven]
    rw [size_given]
    exact size_ofSize g.queueSize
  taskTimeoutMs := natIn_mem (by decide) (by decide) _
  thresholds := inOrder_given (inOrder_ofSize g.queueSize) _ _

/-- Every entry given, each with the value that the limits have. -/
def entries (l : Limits) : Given :=
  { maxSessions := some l.maxSessions
    idleTimeoutMs := some l.idleTimeoutMs
    autoCleanup := some l.autoCleanup
    maxConcurrent := some l.maxConcurrent
    queueSize := some l.queueSize
    taskTimeoutMs := some l.taskTimeoutMs
    priorityScheduling := some l.priorityScheduling
    fairScheduling := some l.fairScheduling
    autoQueueCleanup := some l.autoQueueCleanup
    queueWarning := some l.queueWarning
    queueReject := some l.queueReject }

variable {l : Limits}

theorem ofGiven_entries (h : l.InBounds) : ofGiven l.entries = l := by
  have hsize : Thresholds.ofSize (some (l.queueSize : Int)) =
      ⟨l.queueSize, min 40 (l.queueSize * 4 / 5), l.queueSize⟩ := by
    dsimp only [Thresholds.ofSize]
    rw [natIn_of_mem h.queueSize]
  -- the thresholds are in order, so they take the place of those that go with the size
  have hqueue : (Thresholds.ofSize l.entries.queueSize).given l.entries.queueWarning
      l.entries.queueReject = ⟨l.queueSize, l.queueWarning, l.queueReject⟩ := by
    dsimp only [entries]
    rw [hsize]
    exact if_pos h.thresholds
  unfold ofGiven
  dsimp only
  rw [hqueue]
  dsimp only [entries, Option.getD_some]
  rw [natIn_of_mem h.maxSessions, natIn_of_mem h.idleTimeoutMs, natIn_of_mem h.maxConcurrent,
    natIn_of_mem h.taskTimeoutMs]

theorem read?_toJson (h : l.InBounds) : Given.read? l.toJson = some l.entries := by
  obtain ⟨hsessions, hidle, hconcurrent, hsize, htimeout, hwarning, hreject, -⟩ := h
  -- every number is far below the largest signed word, so each is read as it was written
  let es := (l.toJson.entries? keys).getD fun _ => none
  have hes : l.toJson.entries? keys = some es := rfl
  have hread (key : String) {n : Nat} (hn : n ≤ 86400000) (hkey : es key = some (nat n)) :
      es.read key Json.int64? = some (some (n : Int)) :=
    Json.read_nat hkey (by omega)
  simp only [Given.read?, hes, Option.bind_eq_bind, Option.bind_some,
    hread "max_sessions" (n := l.maxSessions) (by omega) rfl,
    hread "idle_timeout_ms" (n := l.idleTimeoutMs) (by omega) rfl,
    hread "max_concurrent" (n := l.maxConcurrent) (by omega) rfl,
    hread "queue_size" (n := l.queueSize) (by omega) rfl,
    hread "default_task_timeout_ms" (n := l.taskTimeoutMs) (by omega) rfl,
    hread "queue_warning_threshold" (n := l.queueWarning) (by omega) rfl,
    hread "queue_reject_threshold" (n := l.queueReject) (by omega) rfl]
  rfl

end Limits

theorem DeletionStrategy.ofName?_name (s : DeletionStrategy) : ofName? s.name = some s := by
  cases s <;> rfl

theorem LogLevel.ofName?_name (l : LogLevel) : ofName? l.name = some l := by
  cases l <;> rfl

namespace MemoryPolicy

theorem thresholdOf_mem (x : Option Float) :
    (0.5 ≤ thresholdOf x && thresholdOf x ≤ 0.95) = true := by
  cases x with
  | none => rfl
  | some x =>
    unfold thresholdOf
    dsimp only
    split
    case isTrue h => exact h
    case isFalse => rfl

theorem inBounds_ofGiven (g : Given) : (ofGiven g).InBounds where
  maxCacheTokens := natIn_mem (by decide) (by decide) _
  keepTokens := natIn_mem (by decide) (by decide) _
  discardTokens := (natIn_mem (Nat.zero_le _) (Nat.zero_le _) g.discardTokens).2
  pressureThreshold := thresholdOf_mem _
  maxMemoryMb := by
    dsimp only [ofGiven, maxMemoryOf]
    split
    · exact .inl rfl
    · cases g.maxMemoryMb with
      | none => exact .inl rfl
      | some v =>
        unfold natIn
        dsimp only
        split <;> omega

def entries (m : MemoryPolicy) : Given :=
  { contextShifting := some m.contextShifting
    cacheStrategy := some m.cacheStrategy.name
    maxCacheTokens := some m.maxCacheTokens
    keepTokens := some m.keepTokens
    discardTokens := some m.discardTokens
    pressureThreshold := some m.pressureThreshold
    partialDeletion := some m.partialDeletion
    tokenCacheReuse := some m.tokenCacheReuse
    chosenStrategy := m.chosenStrategy.map (·.name)
    maxMemoryMb := some m.maxMemoryMb }

variable {m : MemoryPolicy}

theorem ofGiven_entries (h : m.InBounds) : ofGiven m.entries = m := by
  obtain ⟨htokens, hkeep, hdiscard, hpressure, hmemory⟩ := h
  have hpressure' : thresholdOf (some m.pressureThreshold) = m.pressureThreshold := if_pos hpressure
  -- no limit is written as zero, which is below the bounds of a limit and has a case of its own
  have hmemory' : maxMemoryOf (some (m.maxMemoryMb : Int)) = m.maxMemoryMb := by
    unfold maxMemoryOf
    split
    case isTrue hzero =>
      have := Option.some.inj hzero
      omega
    case isFalse hne =>
      refine natIn_of_mem (hmemory.resolve_left ?_)
      intro hzero
      exact hne (by rw [hzero]; rfl)
  have hchosen : m.entries.chosenStrategy.bind DeletionStrategy.ofName? = m.chosenStrategy := by
    dsimp only [entries]
    cases m.chosenStrategy with
    | none => rfl
    | some s => exact s.ofName?_name
  unfold ofGiven
  rw [hchosen]
  dsimp only [entries, Option.getD_some, Option.bind_some]
  rw [m.cacheStrategy.ofName?_name, natIn_of_mem htokens, natIn_of_mem hkeep,
    natIn_of_mem ⟨Nat.zero_le _, hdiscard⟩, hpressure', hmemory']
  rfl

theorem read?_toJson (h : m.InBounds) : Given.read? m.toJson = some m.entries := by
  obtain ⟨htokens, hkeep, hdiscard, -, hmemory⟩ := h
  let es := (m.toJson.entries? keys).getD fun _ => none
  have hes : m.toJson.entries? keys = some es := rfl
  have hread (key : String) {n : Nat} (hn : n ≤ 4294967295) (hkey : es key = some (nat n)) :
      es.read key Json.int64? = some (some (n : Int)) :=
    Json.read_nat hkey (by omega)
  have hchosen : es.read "cache_deletion_strategy" Json.str? =
      some (m.chosenStrategy.map (·.name)) := Json.read_option rfl
  simp only [Given.read?, hes, Option.bind_eq_bind, Option.bind_some, hchosen,
    hread "max_cache_tokens" (n := m.maxCacheTokens) (by omega) rfl,
    hread "n_keep_tokens" (n := m.keepTokens) (by omega) rfl,
    hread "n_discard_tokens" hdiscard rfl,
    hread "max_memory_mb" (n := m.maxMemoryMb) (by omega) rfl]
  rfl

end MemoryPolicy

namespace Logging

theorem inBounds_ofGiven (g : Given) : (ofGiven g).InBounds where
  file := by
    intro f hf
    exact (Option.filter_eq_some_iff.1 hf).2

def entries (l : Logging) : Given :=
  { level := some l.level.name
    debugEnabled := some l.debugEnabled
    timestamps := some l.timestamps
    colors := some l.colors
    file := l.file }

variable {l : Logging}

theorem ofGiven_entries (h : l.InBounds) : ofGiven l.entries = l := by
  have hfile : (l.file.filter fun f => (Text.supplied? (some f)).isSome) = l.file := by
    cases hf : l.file with
    | none => rfl
    | some f => exact Option.filter_some_pos (h.file f hf)
  unfold ofGiven
  dsimp only [entries, Option.getD_some, Option.bind_some]
  rw [hfile, l.level.ofName?_name]
  rfl

theorem read?_toJson (l : Logging) : Given.read? l.toJson = some l.entries := by
  let es := (l.toJson.entries? keys).getD fun _ => none
  have hes : l.toJson.entries? keys = some es := rfl
  have hfile : es.read "file" Json.str? = some (l.file.map id) := Json.read_option rfl
  rw [Option.map_id] at hfile
  simp only [Given.read?, hes, Option.bind_eq_bind, Option.bind_some, hfile]
  rfl

end Logging

namespace Performance

theorem inBounds_ofGiven (g : Given) : (ofGiven g).InBounds where
  batchSize := natIn_mem (by decide) (by decide) _

def entries (p : Performance) : Given :=
  { batchProcessing := some p.batchProcessing
    batchSize := some p.batchSize }

variable {p : Performance}

theorem ofGiven_entries (h : p.InBounds) : ofGiven p.entries = p := by
  unfold ofGiven
  dsimp only [entries, Option.getD_some]
  rw [natIn_of_mem h.batchSize]

theorem read?_toJson (h : p.InBounds) : Given.read? p.toJson = some p.entries := by
  obtain ⟨hbatch⟩ := h
  let es := (p.toJson.entries? keys).getD fun _ => none
  have hes : p.toJson.entries? keys = some es := rfl
  have hread : es.read "batch_size" Json.int64? = some (some (p.batchSize : Int)) :=
    Json.read_nat rfl (by omega)
  simp only [Given.read?, hes, Option.bind_eq_bind, Option.bind_some, hread]
  rfl

end Performance

theorem Queue.capacity_ofLimits {l : Limits} (h : l.InBounds) :
    (ofLimits l).rules.capacity = l.queueReject := by
  obtain ⟨-, hsize, hreject⟩ := h.thresholds
  change max 1 (min l.queueSize l.queueReject) = l.queueReject
  omega

namespace ServiceConfig

/-- A configuration written out, each section under its name. -/
def document (c : ServiceConfig) : Json :=
  .obj [("backend", c.limits.toJson), ("memory_policy", c.memory.toJson),
    ("logging", c.logging.toJson), ("performance", c.performance.toJson)]

theorem inBounds_ofJson (root : Json) : (ofJson root).InBounds :=
  ⟨Limits.inBounds_ofGiven _, MemoryPolicy.inBounds_ofGiven _, Logging.inBounds_ofGiven _,
    Performance.inBounds_ofGiven _⟩

theorem ofJson_document_iff (c : ServiceConfig) : ofJson c.document = c ↔ c.InBounds := by
  constructor
  · intro h
    rw [← h]
    exact inBounds_ofJson c.document
  · intro h
    have hlimits : Limits.Given.read? (c.document.sectionOf "backend") = some c.limits.entries :=
      Limits.read?_toJson h.limits
    have hmemory : MemoryPolicy.Given.read? (c.document.sectionOf (memoryKey c.document)) =
        some c.memory.entries :=
      MemoryPolicy.read?_toJson h.memory
    have hlogging : Logging.Given.read? (c.document.sectionOf "logging") = some c.logging.entries :=
      Logging.read?_toJson c.logging
    have hperformance : Performance.Given.read? (c.document.sectionOf "performance") =
        some c.performance.entries :=
      Performance.read?_toJson h.performance
    unfold ofJson
    rw [hlimits, hmemory, hlogging, hperformance]
    dsimp only [Option.getD_some]
    rw [Limits.ofGiven_entries h.limits, MemoryPolicy.ofGiven_entries h.memory,
      Logging.ofGiven_entries h.logging, Performance.ofGiven_entries h.performance]

/-- A text that is missing or no JSON is read as a document that asks for nothing. -/
theorem exists_ofJson_eq_parse (text : Option String) : ∃ root, ofJson root = parse text := by
  unfold parse
  split
  case h_1 root _ => exact ⟨root, rfl⟩
  case h_2 => exact ⟨.null, rfl⟩

/-- Whatever a text says, or where there is none, what comes of it is within bounds, and a queue made
of it takes as many tasks as the threshold of rejection says. The bounds are as wide as they can be:
a configuration within them, written out as a document, reads back as it was. -/
theorem texts_give_what_is_inBounds :
    (∀ text : Option String, (parse text).InBounds ∧
      (Queue.ofLimits (parse text).limits).rules.capacity = (parse text).limits.queueReject) ∧
    ∀ c : ServiceConfig, ofJson c.document = c ↔ c.InBounds := by
  refine ⟨fun text => ?_, ofJson_document_iff⟩
  obtain ⟨root, hroot⟩ := exists_ofJson_eq_parse text
  have h : (parse text).InBounds := by
    rw [← hroot]
    exact inBounds_ofJson root
  exact ⟨h, Queue.capacity_ofLimits h.limits⟩

-- The thresholds that are given are out of order, so those that go with the size stay.
example :
    let c := ofJson (.obj [("queue_size", .int 20), ("queue_warning_threshold", .int 15),
      ("queue_reject_threshold", .int 12), ("max_concurrent", .int (-3))])
    c.limits.queueWarning = 16 ∧ c.limits.queueReject = 20 ∧ c.limits.maxConcurrent = 8 :=
  ⟨rfl, rfl, rfl⟩

end ServiceConfig

end ChatInference
