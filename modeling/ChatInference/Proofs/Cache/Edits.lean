import ChatInference.Proofs.Cache.Order
import Mathlib.Logic.Relation

/-!
A ledger under arbitrary edits. A shift of any range by any amount may carry cells across others, onto
others, and up to the last position there is; what every edit keeps is that the cells of a sequence come
in the order of their positions, which are words.
-/

namespace ChatInference

namespace Ledger

theorem pos_le_trans (a b c : Cell) (hab : decide (a.pos ≤ b.pos) = true)
    (hbc : decide (b.pos ≤ c.pos) = true) : decide (a.pos ≤ c.pos) = true :=
  decide_eq_true (Nat.le_trans (of_decide_eq_true hab) (of_decide_eq_true hbc))

theorem pos_le_total (a b : Cell) : (decide (a.pos ≤ b.pos) || decide (b.pos ≤ a.pos)) = true := by
  rw [Bool.or_eq_true, decide_eq_true_eq, decide_eq_true_eq]
  exact Nat.le_total a.pos b.pos

theorem shiftCells_sorted (p0 : Nat) (p1 : Option Nat) (delta : Int) (cells : List Cell) :
    (shiftCells p0 p1 delta cells).Pairwise fun a b => a.pos ≤ b.pos :=
  (List.pairwise_mergeSort pos_le_trans pos_le_total _).imp of_decide_eq_true

theorem mem_shiftCells {p0 : Nat} {p1 : Option Nat} {delta : Int} {cells : List Cell} {d : Cell} :
    d ∈ shiftCells p0 p1 delta cells ↔ ∃ c ∈ cells, shiftCell? p0 p1 delta c = some d := by
  rw [shiftCells, List.mem_mergeSort, List.mem_filterMap]

/-- Every sequence has its cells by position, where some may share one, and its positions are words. -/
structure ByPosition (l : Ledger) : Prop where
  sorted : ∀ seq, (l.cells seq).Pairwise fun a b => a.pos ≤ b.pos
  words : ∀ seq, ∀ c ∈ l.cells seq, c.pos < Position.limit

namespace ByPosition

variable {l : Ledger}

theorem empty : ByPosition {} :=
  ⟨fun _ => List.Pairwise.nil, fun _ _ hc => absurd hc List.not_mem_nil⟩

theorem append (h : l.ByPosition) (seq : SeqId) {ts : List Nat}
    (hroom : l.nextPos seq + ts.length ≤ Position.limit) : (l.append seq ts).ByPosition := by
  refine ⟨fun s => ?_, fun s c hc => ?_⟩
  · rw [cells_append]
    split
    · refine List.pairwise_append.2 ⟨h.sorted seq, ?_, ?_⟩
      · exact (cellsFrom_pairwise _ ts).imp Nat.le_of_lt
      · -- what is appended starts after the largest position
        intro a ha b hb
        have hlt := pos_lt_nextPos ha
        have hge := (pos_of_mem_cellsFrom hb).1
        omega
    · exact h.sorted s
  · rw [cells_append] at hc
    split at hc
    · rcases List.mem_append.1 hc with hold | hnew
      · exact h.words seq c hold
      · have hlt := (pos_of_mem_cellsFrom hnew).2
        omega
    · exact h.words s c hc

theorem replace (h : l.ByPosition) (seq : SeqId) {ts : List Nat}
    (hroom : ts.length ≤ Position.limit) : (l.replace seq ts).ByPosition := by
  refine ⟨fun s => ?_, fun s c hc => ?_⟩
  · rw [cells_replace]
    split
    · exact (cellsFrom_pairwise 0 ts).imp Nat.le_of_lt
    · exact h.sorted s
  · rw [cells_replace] at hc
    split at hc
    · have hlt := (pos_of_mem_cellsFrom hc).2
      omega
    · exact h.words s c hc

theorem remove (h : l.ByPosition) (seq : Option SeqId) (p0 : Nat) (p1 : Option Nat) :
    (l.remove seq p0 p1).ByPosition := by
  have hsub (s : SeqId) : ((l.remove seq p0 p1).cells s).Sublist (l.cells s) := by
    rw [cells_remove]
    split
    · exact List.filter_sublist
    · exact List.Sublist.refl _
  exact ⟨fun s => (h.sorted s).sublist (hsub s), fun s c hc => h.words s c ((hsub s).subset hc)⟩

theorem shift (h : l.ByPosition) (seq : SeqId) (p0 : Nat) (p1 : Option Nat) (delta : Int) :
    (l.shift seq p0 p1 delta).ByPosition := by
  refine ⟨fun s => ?_, fun s c hc => ?_⟩
  · rw [cells_shift]
    split
    · exact shiftCells_sorted p0 p1 delta (l.cells seq)
    · exact h.sorted s
  · rw [cells_shift] at hc
    split at hc
    · obtain ⟨x, hx, hxc⟩ := mem_shiftCells.1 hc
      rcases (shiftCell?_some hxc).2 with ⟨-, hstays⟩ | ⟨-, -, hlt⟩
      · rw [hstays]
        exact h.words seq x hx
      · exact hlt
    · exact h.words s c hc

end ByPosition

end Ledger

namespace LedgerCache

/-- An edit, with any arguments. Tokens are only put where positions are words. -/
inductive Step : LedgerCache → LedgerCache → Prop
  | append (c : LedgerCache) (seq : SeqId) (ts : List Nat)
      (room : c.ledger.nextPos seq + ts.length ≤ Position.limit) :
      Step c { c with ledger := c.ledger.append seq ts }
  | replace (c : LedgerCache) (seq : SeqId) (ts : List Nat) (room : ts.length ≤ Position.limit) :
      Step c { c with ledger := c.ledger.replace seq ts }
  | remove (c : LedgerCache) (seq : Option SeqId) (p0 : Nat) (p1 : Option Nat) :
      Step c (KvCache.remove c seq p0 p1).2
  | shift (c : LedgerCache) (seq : SeqId) (p0 : Nat) (p1 : Option Nat) (delta : Int) :
      Step c (KvCache.shift c seq p0 p1 delta)
  | clear (c : LedgerCache) : Step c (KvCache.clear c)

abbrev Run : LedgerCache → LedgerCache → Prop := Relation.ReflTransGen Step

variable {c c' : LedgerCache}

theorem byPosition_step (hstep : Step c c') (h : c.ledger.ByPosition) : c'.ledger.ByPosition := by
  cases hstep with
  | append seq ts room => exact h.append seq room
  | replace seq ts room => exact h.replace seq room
  | remove seq p0 p1 => exact h.remove seq p0 p1
  | shift seq p0 p1 delta => exact h.shift seq p0 p1 delta
  | clear => exact Ledger.ByPosition.empty

theorem byPosition_run (hrun : Run c c') (h : c.ledger.ByPosition) : c'.ledger.ByPosition := by
  induction hrun with
  | refl => exact h
  | tail _ hstep ih => exact byPosition_step hstep ih

end LedgerCache

end ChatInference
