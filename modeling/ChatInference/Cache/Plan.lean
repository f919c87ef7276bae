import ChatInference.Config.MemoryPolicy

/-! Which positions a context shift or a partial deletion takes from a window. -/

namespace ChatInference

/-- A context shift: what is kept at the head, what is discarded after it, and the whole length. -/
structure ShiftPlan where
  keep : Nat
  discard : Nat
  past : Nat
  deriving DecidableEq, Inhabited

namespace ShiftPlan

/-- A shift discards what it is told to, or half of what lies after the head when told nothing. -/
def discardOf (left discard : Nat) : Nat := if 0 < discard then min discard left else left / 2

/-- None when there is nothing to discard after the head. -/
def plan? (keep past discard : Nat) : Option ShiftPlan :=
  if keep < past ∧ 0 < discardOf (past - keep) discard then
    some ⟨keep, discardOf (past - keep) discard, past⟩
  else none

/-- One past the discarded positions. -/
def cut (p : ShiftPlan) : Nat := p.keep + p.discard

end ShiftPlan

namespace DeletionStrategy

/-- The oldest quarter, the newest quarter, or the middle half of what lies after the head. -/
def bounds? : DeletionStrategy → Nat → Nat → Option (Nat × Nat)
  | lru, _, past => some (0, past / 4)
  | fifo, _, past => some (past - past / 4, past)
  | smart, keep, past =>
    if keep ≤ past then
      let left := past - keep
      let start := keep + left / 4
      some (start, start + left / 2)
    else none

/-- The first position and one past the last of a partial deletion that deletes anything. -/
def range? (s : DeletionStrategy) (keep past : Nat) : Option (Nat × Nat) :=
  (s.bounds? keep past).filter fun r => r.1 < r.2

end DeletionStrategy

end ChatInference
