import ChatInference.Cache.KvCache
import ChatInference.Cache.Plan

/-!
Keeping the cache within its window: context shifts, trims and relief under memory pressure. The
operations work on any cache and count what they do; a failed operation counts nothing.
-/

namespace ChatInference

structure MemoryCounters where
  usageBytes : Nat := 0
  cacheHits : Nat := 0
  cacheMisses : Nat := 0
  contextShifts : Nat := 0
  partialClears : Nat := 0
  fullClears : Nat := 0
  pressureEvents : Nat := 0
  deriving DecidableEq, Inhabited

/-- Whether a window was over its size. -/
inductive TrimSignal where
  | hit
  | miss
  deriving DecidableEq, Inhabited

structure Memory where
  policy : MemoryPolicy
  counters : MemoryCounters := {}

namespace Memory

variable {σ : Type} [KvCache σ]

def count (m : Memory) (f : MemoryCounters → MemoryCounters) : Memory :=
  { m with counters := f m.counters }

def refused (what : String) (range : Nat × Nat) : String :=
  s!"kv cache refused {what} of [{range.1}, {range.2})"

/-- The move of a shift by `n` positions to the left, as a signed 32-bit word. -/
def leftBy (n : Nat) : Int := (-(n : Int)).bmod UInt32.size

/-- Discards positions after the head of a window and closes the gap. -/
def contextShift (m : Memory) (kv : σ) (seq : SeqId) :
    Except Error (Option ShiftPlan) × Memory × σ :=
  if m.policy.contextShifting then
    match ShiftPlan.plan? m.policy.keepTokens (KvCache.nPast kv seq) m.policy.discardTokens with
    | none => (.ok none, m, kv)
    | some plan =>
      match KvCache.remove kv (some seq) plan.keep (some plan.cut) with
      | (false, kv) =>
        (.error (.runtime (refused "removal" (plan.keep, plan.cut) ++ s!" for session {seq}")), m, kv)
      | (true, kv) =>
        (.ok (some plan), m.count fun c => { c with contextShifts := c.contextShifts + 1 },
          KvCache.shift kv seq plan.cut (some plan.past) (leftBy plan.discard))
  else (.error (.runtime "context shifting is disabled"), m, kv)

/-- Deletes part of a window, or of the whole cache; the answer is the length of the range. -/
def clearPartial (m : Memory) (kv : σ) (seq : Option SeqId) (strategy : DeletionStrategy) :
    Except Error Nat × Memory × σ :=
  if m.policy.partialDeletion then
    match strategy.range? m.policy.keepTokens (KvCache.nextOf kv seq) with
    | none => (.ok 0, m, kv)
    | some range =>
      match KvCache.remove kv seq range.1 (some range.2) with
      | (false, kv) => (.error (.runtime (refused "partial removal" range)), m, kv)
      | (true, kv) =>
        (.ok (range.2 - range.1), m.count fun c => { c with partialClears := c.partialClears + 1 },
          kv)
  else (.error (.invalidArgument "partial cache deletion is disabled"), m, kv)

/-- Deletes a sequence, or everything. -/
def clear (m : Memory) (kv : σ) : Option SeqId → Memory × σ
  | some seq => (m, (KvCache.remove kv (some seq) 0 none).2)
  | none => (m.count fun c => { c with fullClears := c.fullClears + 1 }, KvCache.clear kv)

def refresh (m : Memory) (usage : Nat) : Memory :=
  m.count fun c => { c with usageBytes := usage }

def usageMb (m : Memory) : Float := m.counters.usageBytes.toUInt64.toFloat / (1024.0 * 1024.0)

def underPressure (m : Memory) : Bool :=
  m.policy.maxMemoryMb != 0 &&
    m.policy.pressureThreshold ≤ m.usageMb / m.policy.maxMemoryMb.toUInt64.toFloat

/-- Partial deletion over all sequences, and a full clear where that fails. -/
def relieve (m : Memory) (kv : σ) (usage : Nat) : Memory × σ :=
  let m := m.count fun c => { c with pressureEvents := c.pressureEvents + 1 }
  let (m, kv) := match m.clearPartial kv none m.policy.deletionStrategy with
    | (.ok _, m, kv) => (m, kv)
    | (.error _, m, kv) => m.clear kv none
  (m.refresh usage, kv)

/-- Trims a window of more than the allowed tokens. -/
def trim (m : Memory) (kv : σ) (seq : SeqId) : TrimSignal × Memory × σ :=
  if KvCache.nPast kv seq ≤ m.policy.maxCacheTokens then
    (.miss, m.count fun c => { c with cacheMisses := c.cacheMisses + 1 }, kv)
  else
    let (_, m, kv) := m.clearPartial kv (some seq) m.policy.deletionStrategy
    (.hit, m.count fun c => { c with cacheHits := c.cacheHits + 1 }, kv)

/-- The length a window would grow to, as far as a 32-bit word can tell. -/
def projected (past incoming : Nat) (predict : Int) : Nat :=
  min (min (past + incoming) (UInt32.size - 1) + predict.toNat) (UInt32.size - 1)

/-- What precedes a turn that brings `incoming` new tokens and may generate `predict` more: relief
under pressure, a trim if trims are on, and a shift if the context would overflow. -/
def prepareTurn (m : Memory) (kv : σ) (seq : SeqId) (incoming : Nat) (predict : Int)
    (usage : Nat) : Memory × σ :=
  let m := m.refresh usage
  let (m, kv) := if m.underPressure then m.relieve kv usage else (m, kv)
  let (m, kv) := if m.policy.tokenCacheReuse then (m.trim kv seq).2 else (m, kv)
  if m.policy.contextShifting &&
      KvCache.nCtx kv < projected (KvCache.nPast kv seq) incoming predict then
    (m.contextShift kv seq).2
  else (m, kv)

end Memory

end ChatInference
