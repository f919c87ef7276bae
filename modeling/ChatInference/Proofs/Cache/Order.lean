import ChatInference.Proofs.Cache.ContextShift
import ChatInference.Proofs.Cache.Rollback
import Mathlib.Data.List.Perm.Subperm

/-!
The order of cells. Appends, removals and the closing of a gap all keep the cells of a sequence in
ascending position; of what was there, removals and gaps closed leave tokens in the order they had, and
never a longer sequence.
-/

namespace ChatInference

/-- A shift never moves further down than by what was discarded. -/
theorem Memory.neg_le_leftBy (n : Nat) : -(n : Int) ≤ leftBy n := by
  simp only [leftBy, UInt32.size]
  rw [Int.bmod_def]
  split <;> omega

namespace Ledger

/-- Cells by ascending position, no two at the same one. -/
def Ascending (cells : List Cell) : Prop := cells.Pairwise fun a b => a.pos < b.pos

instance (cells : List Cell) : Decidable (Ascending cells) :=
  inferInstanceAs (Decidable (cells.Pairwise fun a b => a.pos < b.pos))

theorem Ascending.nodup_positions {cells : List Cell} (h : Ascending cells) :
    (cells.map (·.pos)).Nodup := by
  unfold List.Nodup
  rw [List.pairwise_map]
  exact h.imp Nat.ne_of_lt

/-- Positions in ascending order leave room for one cell each. -/
theorem Ascending.length_le {cells : List Cell} (h : Ascending cells) {n : Nat}
    (hn : ∀ c ∈ cells, c.pos < n) : cells.length ≤ n := by
  have hsub : cells.map (·.pos) ⊆ List.range n := by
    intro p hp
    obtain ⟨c, hc, rfl⟩ := List.mem_map.1 hp
    exact List.mem_range.2 (hn c hc)
  have hle := (List.subperm_of_subset h.nodup_positions hsub).length_le
  rwa [List.length_map, List.length_range] at hle

theorem ascending_append {cells : List Cell} (h : Ascending cells) {start : Nat} (ts : List Nat)
    (hstart : ∀ c ∈ cells, c.pos < start) : Ascending (cells ++ cellsFrom start ts) := by
  refine List.pairwise_append.2 ⟨h, cellsFrom_pairwise start ts, ?_⟩
  intro a ha b hb
  exact Nat.lt_of_lt_of_le (hstart a ha) (pos_of_mem_cellsFrom hb).1

/-- A shift has nothing to sort where the cells it moved are in order already. -/
theorem shiftCells_of_ascending {p0 : Nat} {p1 : Option Nat} {delta : Int} {cells : List Cell}
    (h : Ascending (cells.filterMap (shiftCell? p0 p1 delta))) :
    shiftCells p0 p1 delta cells = cells.filterMap (shiftCell? p0 p1 delta) := by
  apply List.mergeSort_of_pairwise
  exact h.imp fun hlt => decide_eq_true (Nat.le_of_lt hlt)

/-- What becomes of a cell that a shift does not drop. -/
theorem shiftCell?_some {p0 : Nat} {p1 : Option Nat} {delta : Int} {c d : Cell}
    (h : shiftCell? p0 p1 delta c = some d) :
    d.token = c.token ∧
      ((¬Position.InRange p0 p1 c.pos ∧ d.pos = c.pos) ∨
        (Position.InRange p0 p1 c.pos ∧ (d.pos : Int) = c.pos + delta ∧ d.pos < Position.limit)) := by
  unfold shiftCell? at h
  split at h
  case isFalse hout =>
    cases h
    exact ⟨rfl, .inl ⟨hout, rfl⟩⟩
  case isTrue hin =>
    obtain ⟨pos, hmove, rfl⟩ := Option.map_eq_some_iff.1 h
    unfold Position.move? at hmove
    dsimp only at hmove
    split at hmove
    case isFalse => cases hmove
    case isTrue hfits =>
      cases hmove
      refine ⟨rfl, .inr ⟨hin, ?_, ?_⟩⟩ <;> dsimp only <;> omega

/-- A shift drops cells and renumbers others, and leaves every token where it stands in the row. -/
theorem tokens_filterMap_shiftCell? (p0 : Nat) (p1 : Option Nat) (delta : Int) (cells : List Cell) :
    ((cells.filterMap (shiftCell? p0 p1 delta)).map (·.token)).Sublist (cells.map (·.token)) := by
  induction cells with
  | nil => exact .slnil
  | cons c cells ih =>
    cases hc : shiftCell? p0 p1 delta c with
    | none =>
      rw [List.filterMap_cons_none hc]
      exact ih.cons c.token
    | some d =>
      rw [List.filterMap_cons_some hc, List.map_cons, List.map_cons, (shiftCell?_some hc).1]
      exact ih.cons_cons c.token

/-- Where no cell stands in a gap, all that come after it can be moved down by its length. -/
theorem ascending_closeGap {cells : List Cell} {start stop past : Nat} {delta : Int}
    (h : Ascending cells) (hgap : ∀ c ∈ cells, c.pos < start ∨ stop ≤ c.pos)
    (hpast : ∀ c ∈ cells, c.pos < past) (hdelta : (start : Int) - stop ≤ delta) :
    Ascending (cells.filterMap (shiftCell? stop (some past) delta)) := by
  refine List.pairwise_filterMap.2 (h.imp_of_mem ?_)
  intro a b ha hb hab a' ha' b' hb'
  have hpa := (shiftCell?_some ha').2
  have hpb := (shiftCell?_some hb').2
  rw [inRange_some] at hpa hpb
  have hga := hgap a ha
  have hea := hpast a ha
  have heb := hpast b hb
  omega

/-- Every sequence has its cells in ascending order, and its positions are words. -/
structure InOrder (l : Ledger) : Prop where
  ascending : ∀ seq, Ascending (l.cells seq)
  fits : ∀ seq, l.nextPos seq < Position.limit

/-- What deletions make of a ledger: it is in order, each sequence has lost tokens or none, and ends
no later than it did. -/
structure Thinned (l l' : Ledger) : Prop where
  inOrder : l'.InOrder
  tokens : ∀ seq, (l'.tokens seq).Sublist (l.tokens seq)
  nextPos_le : ∀ seq, l'.nextPos seq ≤ l.nextPos seq

/-- Of all sequences, only one may have changed. -/
def SameBut (seq : SeqId) (l l' : Ledger) : Prop := ∀ s, s ≠ seq → l'.cells s = l.cells s

variable {l l' l'' : Ledger} {seq : SeqId}

theorem InOrder.length_le_nextPos (h : l.InOrder) (seq : SeqId) : l.length seq ≤ l.nextPos seq :=
  (h.ascending seq).length_le fun _ hc => pos_lt_nextPos hc

theorem inOrder_empty : InOrder {} := by
  refine ⟨fun seq => ?_, fun seq => ?_⟩
  · exact List.Pairwise.nil
  · change 0 < Position.limit
    decide

theorem inOrder_append (h : l.InOrder) (seq : SeqId) (ts : List Nat)
    (hfits : (l.append seq ts).nextPos seq < Position.limit) : (l.append seq ts).InOrder := by
  have hcells := cells_append l seq ts
  refine ⟨fun s => ?_, fun s => ?_⟩
  · rw [hcells]
    split
    · exact ascending_append (h.ascending seq) ts fun c hc => pos_lt_nextPos hc
    · exact h.ascending s
  · by_cases hs : s = seq
    · rw [hs]
      exact hfits
    · rw [nextPos_congr ((hcells s).trans (if_neg hs))]
      exact h.fits s

theorem inOrder_replace (h : l.InOrder) (seq : SeqId) (ts : List Nat)
    (hfits : (l.replace seq ts).nextPos seq < Position.limit) : (l.replace seq ts).InOrder := by
  have hcells := cells_replace l seq ts
  refine ⟨fun s => ?_, fun s => ?_⟩
  · rw [hcells]
    split
    · exact cellsFrom_pairwise 0 ts
    · exact h.ascending s
  · by_cases hs : s = seq
    · rw [hs]
      exact hfits
    · rw [nextPos_congr ((hcells s).trans (if_neg hs))]
      exact h.fits s

theorem InOrder.thinned (h : l.InOrder) : Thinned l l :=
  ⟨h, fun _ => List.Sublist.refl _, fun _ => Nat.le_refl _⟩

theorem Thinned.trans (h : Thinned l l') (h' : Thinned l' l'') : Thinned l l'' :=
  ⟨h'.inOrder, fun seq => (h'.tokens seq).trans (h.tokens seq),
    fun seq => Nat.le_trans (h'.nextPos_le seq) (h.nextPos_le seq)⟩

theorem SameBut.trans (h : SameBut seq l l') (h' : SameBut seq l' l'') : SameBut seq l l'' :=
  fun s hs => (h' s hs).trans (h s hs)

theorem sameBut_refl (seq : SeqId) (l : Ledger) : SameBut seq l l := fun _ _ => rfl

/-- Deletions that move no cell. -/
theorem thinned_of_sublist (h : l.InOrder)
    (hcells : ∀ seq, (l'.cells seq).Sublist (l.cells seq)) : Thinned l l' := by
  have hle (seq : SeqId) : l'.nextPos seq ≤ l.nextPos seq :=
    nextPos_le_iff.2 fun c hc => pos_lt_nextPos ((hcells seq).subset hc)
  exact ⟨⟨fun seq => (h.ascending seq).sublist (hcells seq),
      fun seq => Nat.lt_of_le_of_lt (hle seq) (h.fits seq)⟩,
    fun seq => (hcells seq).map _, hle⟩

theorem thinned_remove (h : l.InOrder) (seq : Option SeqId) (p0 : Nat) (p1 : Option Nat) :
    Thinned l (l.remove seq p0 p1) := by
  apply thinned_of_sublist h
  intro s
  rw [cells_remove]
  split
  · exact List.filter_sublist
  · exact List.Sublist.refl _

theorem thinned_clear (h : l.InOrder) : Thinned l l.clear :=
  thinned_of_sublist h fun _ => List.nil_sublist _

theorem sameBut_remove (l : Ledger) (seq : SeqId) (p0 : Nat) (p1 : Option Nat) :
    SameBut seq l (l.remove (some seq) p0 p1) := by
  intro s hs
  rw [cells_remove, if_neg]
  rintro (h | h)
  · cases h
  · exact hs (Option.some.inj h).symm

theorem sameBut_shift (l : Ledger) (seq : SeqId) (p0 : Nat) (p1 : Option Nat) (delta : Int) :
    SameBut seq l (l.shift seq p0 p1 delta) := by
  intro s hs
  rw [cells_shift, if_neg hs]

/-- The cells after a gap of the discarded length move down to its start; those that a shift by more
than half of the words would carry upwards have nowhere to go. -/
theorem thinned_shift (h : l.InOrder) (p : ShiftPlan)
    (hgap : ∀ c ∈ l.cells seq, c.pos < p.keep ∨ p.cut ≤ c.pos) (hpast : l.nextPos seq ≤ p.past)
    (hfits : p.discard < Position.limit) :
    Thinned l (l.shift seq p.cut (some p.past) (Memory.leftBy p.discard)) := by
  let moved := (l.cells seq).filterMap (shiftCell? p.cut (some p.past) (Memory.leftBy p.discard))
  have hcut : p.cut = p.keep + p.discard := rfl
  have hlow := Memory.neg_le_leftBy p.discard
  have hasc : Ascending moved :=
    ascending_closeGap (h.ascending seq) hgap
      (fun c hc => Nat.lt_of_lt_of_le (pos_lt_nextPos hc) hpast) (by omega)
  have hcells (s : SeqId) : (l.shift seq p.cut (some p.past) (Memory.leftBy p.discard)).cells s =
      if s = seq then moved else l.cells s := by
    rw [cells_shift, shiftCells_of_ascending hasc]
  -- no cell ends up above the place it came from
  have hdown : ∀ d ∈ moved, d.pos < l.nextPos seq := by
    intro d hd
    obtain ⟨c, hc, hcd⟩ := List.mem_filterMap.1 hd
    have hpos := (shiftCell?_some hcd).2
    have hlt := pos_lt_nextPos hc
    rw [inRange_some] at hpos
    rcases Nat.lt_or_ge (2 ^ 31) p.discard with hlong | hshort
    · rw [Memory.leftBy_of_gt hlong hfits] at hpos
      omega
    · rw [Memory.leftBy_of_le hshort] at hpos
      omega
  have hle (s : SeqId) :
      (l.shift seq p.cut (some p.past) (Memory.leftBy p.discard)).nextPos s ≤ l.nextPos s := by
    apply nextPos_le_iff.2
    intro d hd
    rw [hcells] at hd
    by_cases hs : s = seq
    · rw [if_pos hs] at hd
      rw [hs]
      exact hdown d hd
    · rw [if_neg hs] at hd
      exact pos_lt_nextPos hd
  refine ⟨⟨fun s => ?_, fun s => Nat.lt_of_le_of_lt (hle s) (h.fits s)⟩, fun s => ?_, hle⟩
  · rw [hcells]
    split
    · exact hasc
    · exact h.ascending s
  · unfold tokens
    rw [hcells]
    by_cases hs : s = seq
    · rw [if_pos hs, hs]
      exact tokens_filterMap_shiftCell? _ _ _ _
    · rw [if_neg hs]

/-- A whole context shift: the planned range goes, and the rest of the window closes up. -/
theorem thinned_shiftPlan (h : l.InOrder) {keep discard : Nat} {p : ShiftPlan}
    (hplan : ShiftPlan.plan? keep (l.nextPos seq) discard = some p) :
    Thinned (l.remove (some seq) p.keep (some p.cut))
      ((l.remove (some seq) p.keep (some p.cut)).shift seq p.cut (some p.past)
        (Memory.leftBy p.discard)) := by
  obtain ⟨hpast, -, hcut⟩ := ShiftPlan.plan?_bounds hplan
  have hremoved := thinned_remove h (some seq) p.keep (some p.cut)
  have hend : (l.remove (some seq) p.keep (some p.cut)).nextPos seq ≤ p.past := by
    rw [hpast]
    exact hremoved.nextPos_le seq
  -- the plan ends where the window does, so that what it discards is a word too
  have hfits := h.fits seq
  have hlong : p.discard ≤ p.cut := Nat.le_add_left _ _
  refine thinned_shift hremoved.inOrder p ?_ hend (by omega)
  intro c hc
  rw [cells_remove, if_pos (.inr rfl), List.mem_filter, Bool.not_eq_true',
    decide_eq_false_iff_not, inRange_some] at hc
  omega

end Ledger

end ChatInference
