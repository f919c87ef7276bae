import ChatInference.Config.Limits
import ChatInference.Error

/-! How the cache is kept within its window: context shifts, trims and memory pressure. -/

namespace ChatInference

/-- Which part of a window a partial deletion takes. -/
inductive DeletionStrategy where
  | lru
  | fifo
  | smart
  deriving DecidableEq, Inhabited

namespace DeletionStrategy

def name : DeletionStrategy → String
  | lru => "lru"
  | fifo => "fifo"
  | smart => "smart"

def ofName? : String → Option DeletionStrategy
  | "lru" => some lru
  | "fifo" => some fifo
  | "smart" => some smart
  | _ => none

def parse (text : String) : Except Error DeletionStrategy :=
  match ofName? text with
  | some s => .ok s
  | none => .error (.invalidArgument
      ("unknown cache strategy '" ++ text ++ "' (expected lru, fifo or smart)"))

end DeletionStrategy

structure MemoryPolicy where
  contextShifting : Bool := true
  cacheStrategy : DeletionStrategy := .lru
  maxCacheTokens : Nat := 10000
  keepTokens : Nat := 256
  /-- Zero discards half of what a shift may discard. -/
  discardTokens : Nat := 0
  pressureThreshold : Float := 0.85
  partialDeletion : Bool := true
  tokenCacheReuse : Bool := true
  chosenStrategy : Option DeletionStrategy := none
  /-- Zero is no limit, and no pressure ever. -/
  maxMemoryMb : Nat := 0
  deriving BEq, Inhabited

namespace MemoryPolicy

/-- The strategy of trims and of relief under pressure. -/
def deletionStrategy (p : MemoryPolicy) : DeletionStrategy :=
  p.chosenStrategy.getD p.cacheStrategy

structure Given where
  contextShifting : Option Bool := none
  cacheStrategy : Option String := none
  maxCacheTokens : Option Int := none
  keepTokens : Option Int := none
  discardTokens : Option Int := none
  pressureThreshold : Option Float := none
  partialDeletion : Option Bool := none
  tokenCacheReuse : Option Bool := none
  chosenStrategy : Option String := none
  maxMemoryMb : Option Int := none

def keys : List String :=
  ["context_shifting", "cache_strategy", "max_cache_tokens", "n_keep_tokens", "n_discard_tokens",
    "memory_pressure_threshold", "enable_partial_cache_deletion", "enable_token_cache_reuse",
    "cache_deletion_strategy", "max_memory_mb"]

def Given.read? (v : Json) : Option Given := do
  let es ← v.entries? keys
  return {
    contextShifting := ← es.read "context_shifting" Json.bool?
    cacheStrategy := ← es.read "cache_strategy" Json.str?
    maxCacheTokens := ← es.read "max_cache_tokens" Json.int64?
    keepTokens := ← es.read "n_keep_tokens" Json.int64?
    discardTokens := ← es.read "n_discard_tokens" Json.int64?
    pressureThreshold := ← es.read "memory_pressure_threshold" Json.double?
    partialDeletion := ← es.read "enable_partial_cache_deletion" Json.bool?
    tokenCacheReuse := ← es.read "enable_token_cache_reuse" Json.bool?
    chosenStrategy := ← es.read "cache_deletion_strategy" Json.str?
    maxMemoryMb := ← es.read "max_memory_mb" Json.int64? }

def thresholdOf : Option Float → Float
  | some x => if 0.5 ≤ x && x ≤ 0.95 then x else 0.85
  | none => 0.85

def maxMemoryOf (v : Option Int) : Nat :=
  if v = some 0 then 0 else Config.natIn 128 32768 0 v

def ofGiven (g : Given) : MemoryPolicy :=
  { contextShifting := g.contextShifting.getD true
    cacheStrategy := (g.cacheStrategy.bind DeletionStrategy.ofName?).getD .lru
    maxCacheTokens := Config.natIn 1024 1000000 10000 g.maxCacheTokens
    keepTokens := Config.natIn 64 2048 256 g.keepTokens
    discardTokens := Config.natIn 0 (UInt32.size - 1) 0 g.discardTokens
    pressureThreshold := thresholdOf g.pressureThreshold
    partialDeletion := g.partialDeletion.getD true
    tokenCacheReuse := g.tokenCacheReuse.getD true
    chosenStrategy := g.chosenStrategy.bind DeletionStrategy.ofName?
    maxMemoryMb := maxMemoryOf g.maxMemoryMb }

end MemoryPolicy

end ChatInference
