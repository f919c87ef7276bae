import ChatInference.Cache.Hygiene
import ChatInference.Json.Writer

/-! The cells of the cache and the state of its upkeep, written out. -/

namespace ChatInference

open Json (nat list)

/-- Maximal runs of items that follow one another: the first of each run, and its length. -/
def runs {α : Type} (follows : α → α → Bool) : List α → List (α × Nat)
  | [] => []
  | x :: xs => go x x 1 xs
where
  go (first last : α) (n : Nat) : List α → List (α × Nat)
    | [] => [(first, n)]
    | y :: ys => if follows last y then go first y (n + 1) ys else (first, n) :: go y y 1 ys

/-- Tokens in runs of successive ones. -/
def tokenRuns (tokens : List Nat) : Json :=
  list (fun (t, n) => list nat [t, n]) (runs (fun a b => b == a + 1) tokens)

/-- Whether position and token both go up by one. -/
def Cell.follows (a b : Cell) : Bool := b.pos == a.pos + 1 && b.token == a.token + 1

/-- The cells of each sequence in runs. -/
def Ledger.toJson (l : Ledger) : Json :=
  list (fun (seq, cells) => .arr [nat seq,
    list (fun (c, n) => list nat [c.pos, c.token, n]) (runs Cell.follows cells)]) l.seqs.entries

def Memory.toJson (m : Memory) : Json :=
  .obj [("usage_bytes", nat m.counters.usageBytes), ("max_memory_mb", nat m.policy.maxMemoryMb),
    ("pressure_threshold", .float m.policy.pressureThreshold),
    ("under_pressure", .bool m.underPressure), ("cache_hits", nat m.counters.cacheHits),
    ("cache_misses", nat m.counters.cacheMisses),
    ("context_shifts", nat m.counters.contextShifts),
    ("partial_clears", nat m.counters.partialClears),
    ("full_clears", nat m.counters.fullClears),
    ("pressure_events", nat m.counters.pressureEvents)]

end ChatInference
