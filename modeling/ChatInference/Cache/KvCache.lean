import ChatInference.Cache.Ledger

/-! What the rest of the library asks of a cache of token positions. -/

namespace ChatInference

class KvCache (σ : Type) where
  /-- How many positions the context has. -/
  nCtx : σ → Nat
  /-- The largest position of a sequence, or of all. -/
  posMax : σ → Option SeqId → Option Nat
  /-- Deletes a range; a cache may refuse, and then deletes nothing. -/
  remove : σ → Option SeqId → Nat → Option Nat → Bool × σ
  /-- Moves the positions of a range. -/
  shift : σ → SeqId → Nat → Option Nat → Int → σ
  clear : σ → σ

namespace KvCache

/-- The first position after all cells of a sequence, or of all sequences. -/
def nextOf {σ : Type} [KvCache σ] (kv : σ) (seq : Option SeqId) : Nat :=
  match posMax kv seq with
  | some p => p + 1
  | none => 0

def nPast {σ : Type} [KvCache σ] (kv : σ) (seq : SeqId) : Nat := nextOf kv (some seq)

end KvCache

/-- A ledger with the length of its context; it accepts every removal. -/
structure LedgerCache where
  nCtx : Nat
  ledger : Ledger := {}
  deriving DecidableEq, Inhabited

instance : KvCache LedgerCache where
  nCtx c := c.nCtx
  posMax c seq := c.ledger.posMax seq
  remove c seq p0 p1 := (true, { c with ledger := c.ledger.remove seq p0 p1 })
  shift c seq p0 p1 delta := { c with ledger := c.ledger.shift seq p0 p1 delta }
  clear c := { c with ledger := c.ledger.clear }

end ChatInference
