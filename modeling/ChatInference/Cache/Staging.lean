import ChatInference.Cache.KvCache

/-!
Feeding a growing conversation to the cache. The cache remembers for each sequence how much of its
rendering was ingested, so a turn adds only what is new, and a failed turn takes it back.
-/

namespace ChatInference

/-- A cache with the length of the rendering that each sequence has ingested. -/
structure StagingCache where
  nCtx : Nat := 0
  ledger : Ledger := {}
  ingested : Keyed Nat := ∅
  deriving DecidableEq, Inhabited

/-- What a turn added: everything from `firstPos` on. -/
structure Staged where
  seq : SeqId
  firstPos : Nat
  previous : Option Nat
  deriving DecidableEq, Inhabited

namespace StagingCache

def seen (c : StagingCache) (seq : SeqId) : Nat := (c.ingested.get? seq).getD 0

/-- Whether a rendering of that length has to be ingested from its beginning. -/
def startsOver (c : StagingCache) (seq : SeqId) (full : Nat) : Bool :=
  c.ledger.length seq == 0 || full < c.seen seq

/-- Ingests what is new in a rendering. The answer is all that the sequence then holds, with what
it takes to undo the step. -/
def stage (c : StagingCache) (seq : SeqId) (full : List Nat) :
    (List Nat × Staged) × StagingCache :=
  let (ledger, staged) :=
    if c.startsOver seq full.length then
      (c.ledger.replace seq full, (⟨seq, 0, none⟩ : Staged))
    else
      (c.ledger.append seq (full.drop (c.seen seq)),
        ⟨seq, c.ledger.nextPos seq, c.ingested.get? seq⟩)
  ((ledger.tokens seq, staged),
    { c with ledger, ingested := c.ingested.set seq full.length })

/-- How many tokens `stage` would add for a rendering of that length. -/
def unseen (c : StagingCache) (seq : SeqId) (full : Nat) : Nat :=
  if c.startsOver seq full then full - c.ledger.length seq else full - c.seen seq

def rollback (c : StagingCache) (s : Staged) : StagingCache :=
  { c with
    ledger := c.ledger.remove (some s.seq) s.firstPos none
    ingested := match s.previous with
      | some n => c.ingested.set s.seq n
      | none => c.ingested.erase s.seq }

/-- Whether a removal up to `p1` reaches the last cell of a sequence. -/
def reachesTail (c : StagingCache) (seq : SeqId) (p1 : Option Nat) : Bool :=
  match p1, c.ledger.posMax (some seq) with
  | some p1, some last => last < p1
  | _, _ => true

/-- What a sequence remembers after a removal: nothing once it is empty, less by a removed tail,
and all of it when only its head or middle went. -/
def seenAfter (before after : StagingCache) (p1 : Option Nat) (seq : SeqId) (seen : Nat) :
    Option Nat :=
  let left := after.ledger.length seq
  if left == 0 then none
  else if before.reachesTail seq p1 then some (seen - (before.ledger.length seq - left))
  else some seen

def remove (c : StagingCache) (seq : Option SeqId) (p0 : Nat) (p1 : Option Nat) : StagingCache :=
  let after := { c with ledger := c.ledger.remove seq p0 p1 }
  let affected (s : SeqId) : Bool := seq == none || seq == some s
  let kept := c.ingested.filter fun s n => !affected s || (seenAfter c after p1 s n).isSome
  { after with
    ingested := kept.map fun s n => if affected s then (seenAfter c after p1 s n).getD n else n }

def shift (c : StagingCache) (seq : SeqId) (p0 : Nat) (p1 : Option Nat) (delta : Int) :
    StagingCache :=
  { c with ledger := c.ledger.shift seq p0 p1 delta }

def clear (c : StagingCache) : StagingCache := { c with ledger := {}, ingested := ∅ }

end StagingCache

instance : KvCache StagingCache where
  nCtx c := c.nCtx
  posMax c seq := c.ledger.posMax seq
  remove c seq p0 p1 := (true, c.remove seq p0 p1)
  shift c seq p0 p1 delta := c.shift seq p0 p1 delta
  clear c := c.clear

end ChatInference
