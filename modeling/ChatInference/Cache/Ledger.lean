import ChatInference.Keyed.Basic

/-!
Which token sits at which position of the cache, by sequence. Positions are 32-bit words, and a
range without an end runs up to the largest word.
-/

namespace ChatInference

abbrev SeqId := Nat

structure Cell where
  pos : Nat
  token : Nat
  deriving DecidableEq, Inhabited

namespace Position

/-- One past the largest position. -/
def limit : Nat := UInt32.size

/-- The end of a range: an open one stands at the largest position. -/
def rangeEnd (p1 : Option Nat) : Nat := p1.getD (limit - 1)

def InRange (p0 : Nat) (p1 : Option Nat) (pos : Nat) : Prop := p0 ≤ pos ∧ pos < rangeEnd p1

instance (p0 : Nat) (p1 : Option Nat) (pos : Nat) : Decidable (InRange p0 p1 pos) := by
  unfold InRange; infer_instance

/-- The moved position, if it is one. -/
def move? (pos : Nat) (delta : Int) : Option Nat :=
  let moved := (pos : Int) + delta
  if 0 ≤ moved ∧ moved < limit then some moved.toNat else none

end Position

structure Ledger where
  seqs : Keyed (List Cell) := ∅
  deriving DecidableEq, Inhabited

namespace Ledger

def cells (l : Ledger) (seq : SeqId) : List Cell := (l.seqs.get? seq).getD []

/-- The tokens of a sequence in position order. -/
def tokens (l : Ledger) (seq : SeqId) : List Nat := (l.cells seq).map (·.token)

def length (l : Ledger) (seq : SeqId) : Nat := (l.cells seq).length

def usedCells (l : Ledger) : Nat := l.seqs.values.flatten.length

/-- The largest position of a sequence, or of all. -/
def posMax (l : Ledger) : Option SeqId → Option Nat
  | some seq => ((l.cells seq).map (·.pos)).max?
  | none => (l.seqs.values.flatten.map (·.pos)).max?

def nextPos (l : Ledger) (seq : SeqId) : Nat :=
  match l.posMax (some seq) with
  | some p => p + 1
  | none => 0

/-- Cells at consecutive positions. -/
def cellsFrom (start : Nat) : List Nat → List Cell
  | [] => []
  | t :: ts => ⟨start, t⟩ :: cellsFrom (start + 1) ts

/-- Appends tokens after the last position of a sequence. -/
def append (l : Ledger) (seq : SeqId) (tokens : List Nat) : Ledger :=
  ⟨l.seqs.set seq (l.cells seq ++ cellsFrom (l.nextPos seq) tokens)⟩

/-- Puts tokens at the positions from zero in place of a sequence. -/
def replace (l : Ledger) (seq : SeqId) (tokens : List Nat) : Ledger :=
  ⟨l.seqs.set seq (cellsFrom 0 tokens)⟩

/-- Deletes the cells of a range, of one sequence or of all. Emptied sequences go. -/
def remove (l : Ledger) (seq : Option SeqId) (p0 : Nat) (p1 : Option Nat) : Ledger :=
  let keep (cells : List Cell) := cells.filter fun c => !decide (Position.InRange p0 p1 c.pos)
  ⟨(l.seqs.map fun s cells => if seq = none ∨ seq = some s then keep cells else cells).filter
    fun _ cells => !cells.isEmpty⟩

/-- A cell moved by `delta` if it lies in the range; it is dropped when it has nowhere to go. -/
def shiftCell? (p0 : Nat) (p1 : Option Nat) (delta : Int) (c : Cell) : Option Cell :=
  if Position.InRange p0 p1 c.pos then (Position.move? c.pos delta).map ({ c with pos := · })
  else some c

/-- Moves the cells of a range; cells that meet keep the order they were stored in. -/
def shiftCells (p0 : Nat) (p1 : Option Nat) (delta : Int) (cells : List Cell) : List Cell :=
  (cells.filterMap (shiftCell? p0 p1 delta)).mergeSort fun a b => a.pos ≤ b.pos

def shift (l : Ledger) (seq : SeqId) (p0 : Nat) (p1 : Option Nat) (delta : Int) : Ledger :=
  ⟨l.seqs.modify seq (shiftCells p0 p1 delta)⟩

def clear (_ : Ledger) : Ledger := {}

end Ledger

end ChatInference
