import ChatInference.Config.Service
import ChatInference.Json.Writer

/-! Configurations written out, section by section, under the keys they are read from. -/

namespace ChatInference

open Json (nat option)

def Limits.toJson (l : Limits) : Json :=
  .obj [("max_sessions", nat l.maxSessions), ("idle_timeout_ms", nat l.idleTimeoutMs),
    ("auto_cleanup", .bool l.autoCleanup), ("max_concurrent", nat l.maxConcurrent),
    ("queue_size", nat l.queueSize), ("default_task_timeout_ms", nat l.taskTimeoutMs),
    ("priority_scheduling_enabled", .bool l.priorityScheduling),
    ("fair_scheduling_enabled", .bool l.fairScheduling),
    ("auto_queue_cleanup", .bool l.autoQueueCleanup),
    ("queue_warning_threshold", nat l.queueWarning),
    ("queue_reject_threshold", nat l.queueReject)]

def MemoryPolicy.toJson (m : MemoryPolicy) : Json :=
  .obj [("context_shifting", .bool m.contextShifting),
    ("cache_strategy", .str m.cacheStrategy.name), ("max_cache_tokens", nat m.maxCacheTokens),
    ("n_keep_tokens", nat m.keepTokens), ("n_discard_tokens", nat m.discardTokens),
    ("memory_pressure_threshold", .float m.pressureThreshold),
    ("enable_partial_cache_deletion", .bool m.partialDeletion),
    ("enable_token_cache_reuse", .bool m.tokenCacheReuse),
    ("cache_deletion_strategy", option (fun s => .str s.name) m.chosenStrategy),
    ("max_memory_mb", nat m.maxMemoryMb)]

def Logging.toJson (l : Logging) : Json :=
  .obj [("level", .str l.level.name), ("enable_debug", .bool l.debugEnabled),
    ("timestamps", .bool l.timestamps), ("colors", .bool l.colors),
    ("file", option .str l.file)]

def Performance.toJson (p : Performance) : Json :=
  .obj [("batch_processing", .bool p.batchProcessing), ("batch_size", nat p.batchSize)]

end ChatInference
