import ChatInference.Cache.Ledger
import ChatInference.Keyed.Lemmas

/-! What each edit of a ledger does to the cells of each sequence, and to runs of cells at
consecutive positions in particular. -/

namespace ChatInference.Ledger

theorem cells_append (l : Ledger) (seq : SeqId) (ts : List Nat) (s : SeqId) :
    (l.append seq ts).cells s =
      if s = seq then l.cells seq ++ cellsFrom (l.nextPos seq) ts else l.cells s := by
  simp only [cells, append]
  rw [Keyed.get?_set]
  split <;> rfl

theorem cells_replace (l : Ledger) (seq : SeqId) (ts : List Nat) (s : SeqId) :
    (l.replace seq ts).cells s = if s = seq then cellsFrom 0 ts else l.cells s := by
  simp only [cells, replace]
  rw [Keyed.get?_set]
  split <;> rfl

theorem cells_remove (l : Ledger) (seq : Option SeqId) (p0 : Nat) (p1 : Option Nat) (s : SeqId) :
    (l.remove seq p0 p1).cells s =
      if seq = none ∨ seq = some s then
        (l.cells s).filter fun c => !decide (Position.InRange p0 p1 c.pos)
      else l.cells s := by
  simp only [cells, remove]
  rw [Keyed.get?_filter, Keyed.get?_map]
  cases l.seqs.get? s with
  | none => simp [Option.filter]
  | some cs =>
    -- an emptied sequence leaves the map, and a missing one has no cells
    have hgone (ds : List Cell) : ((some ds).filter fun ds => !ds.isEmpty).getD [] = ds := by
      cases ds <;> rfl
    rw [Option.map_some, hgone]
    rfl

theorem cells_shift (l : Ledger) (seq : SeqId) (p0 : Nat) (p1 : Option Nat) (delta : Int)
    (s : SeqId) :
    (l.shift seq p0 p1 delta).cells s =
      if s = seq then shiftCells p0 p1 delta (l.cells seq) else l.cells s := by
  simp only [cells, shift]
  rw [Keyed.get?_modify]
  by_cases hs : s = seq
  · subst hs
    rw [if_pos rfl, if_pos rfl]
    cases l.seqs.get? s with
    | none => simp [shiftCells]
    | some cs => rfl
  · rw [if_neg hs, if_neg hs]

theorem inRange_some {p0 p1 pos : Nat} :
    Position.InRange p0 (some p1) pos ↔ p0 ≤ pos ∧ pos < p1 :=
  Iff.rfl

@[simp] theorem length_cellsFrom (start : Nat) (ts : List Nat) :
    (cellsFrom start ts).length = ts.length := by
  induction ts generalizing start with
  | nil => rfl
  | cons t ts ih => simp [cellsFrom, ih]

@[simp] theorem tokens_cellsFrom (start : Nat) (ts : List Nat) :
    (cellsFrom start ts).map (·.token) = ts := by
  induction ts generalizing start with
  | nil => rfl
  | cons t ts ih => simp [cellsFrom, ih]

theorem positions_cellsFrom (start : Nat) (ts : List Nat) :
    (cellsFrom start ts).map (·.pos) = List.range' start ts.length := by
  induction ts generalizing start with
  | nil => rfl
  | cons t ts ih => simp [cellsFrom, ih, List.range'_succ]

theorem cellsFrom_append (start : Nat) (ts us : List Nat) :
    cellsFrom start (ts ++ us) = cellsFrom start ts ++ cellsFrom (start + ts.length) us := by
  induction ts generalizing start with
  | nil => simp [cellsFrom]
  | cons t ts ih =>
    have hs : start + 1 + ts.length = start + (ts.length + 1) := by omega
    simp only [List.cons_append, cellsFrom, List.length_cons, ih, hs]

theorem pos_of_mem_cellsFrom {start : Nat} {ts : List Nat} {c : Cell}
    (h : c ∈ cellsFrom start ts) : start ≤ c.pos ∧ c.pos < start + ts.length := by
  induction ts generalizing start with
  | nil => simp [cellsFrom] at h
  | cons t ts ih =>
    rw [cellsFrom, List.mem_cons] at h
    rw [List.length_cons]
    rcases h with rfl | h
    · exact ⟨Nat.le_refl start, by dsimp only; omega⟩
    · have hp := ih h
      omega

/-- A run of cells below a bound is no longer than what is left up to it. -/
theorem add_length_le_of_cellsFrom {start n : Nat} {ts : List Nat} (hstart : start ≤ n)
    (h : ∀ c ∈ cellsFrom start ts, c.pos < n) : start + ts.length ≤ n := by
  induction ts generalizing start with
  | nil => simpa using hstart
  | cons t ts ih =>
    simp only [cellsFrom, List.forall_mem_cons] at h
    have hrest := ih (Nat.succ_le_of_lt h.1) h.2
    simp only [List.length_cons]
    omega

theorem cellsFrom_pairwise (start : Nat) (ts : List Nat) :
    (cellsFrom start ts).Pairwise fun a b => a.pos < b.pos := by
  induction ts generalizing start with
  | nil => exact List.Pairwise.nil
  | cons t ts ih =>
    refine List.pairwise_cons.2 ⟨fun c hc => ?_, ih (start + 1)⟩
    exact (pos_of_mem_cellsFrom hc).1

theorem max?_pos_cellsFrom (start : Nat) {ts : List Nat} (h : ts ≠ []) :
    ((cellsFrom start ts).map (·.pos)).max? = some (start + ts.length - 1) := by
  have hlen : 0 < ts.length := List.length_pos_iff.2 h
  rw [List.max?_eq_some_iff]
  constructor
  · obtain ⟨us, t, rfl⟩ := List.eq_nil_or_concat ts |>.resolve_left h
    rw [List.concat_eq_append] at hlen ⊢
    rw [cellsFrom_append, List.map_append, List.mem_append]
    refine .inr ?_
    simp only [cellsFrom, List.map_cons, List.map_nil, List.mem_singleton, List.length_append,
      List.length_singleton]
    omega
  · intro p hp
    obtain ⟨c, hc, rfl⟩ := List.mem_map.1 hp
    have := pos_of_mem_cellsFrom hc
    omega

theorem nextPos_of_cellsFrom {l : Ledger} {seq : SeqId} {ts : List Nat}
    (h : l.cells seq = cellsFrom 0 ts) : l.nextPos seq = ts.length := by
  by_cases hts : ts = []
  · subst hts
    simp [nextPos, posMax, h, cellsFrom]
  · have hlen : 0 < ts.length := List.length_pos_iff.2 hts
    simp only [nextPos, posMax, h, max?_pos_cellsFrom 0 hts]
    omega

/-- Deleting a slice of a run leaves what stands before it and what stands after it. -/
theorem filter_cellsFrom_slice (ts : List Nat) {a b : Nat} (hab : a ≤ b) (hb : b ≤ ts.length) :
    ((cellsFrom 0 ts).filter fun c => !decide (Position.InRange a (some b) c.pos)) =
      cellsFrom 0 (ts.take a) ++ cellsFrom b (ts.drop b) := by
  -- the run is what stands before the slice, the slice, and what stands after it
  let p (c : Cell) : Bool := !decide (Position.InRange a (some b) c.pos)
  let mid := (ts.drop a).take (b - a)
  have hp (c : Cell) : p c = true ↔ ¬(a ≤ c.pos ∧ c.pos < b) := by
    rw [Bool.not_eq_true', decide_eq_false_iff_not, inRange_some]
  have hsplit : ts.take a ++ (mid ++ ts.drop b) = ts := by
    have hd : ts.drop b = (ts.drop a).drop (b - a) := by
      rw [List.drop_drop, Nat.add_sub_cancel' hab]
    rw [hd, List.take_append_drop, List.take_append_drop]
  have ha : (ts.take a).length = a := List.length_take_of_le (Nat.le_trans hab hb)
  have hm : mid.length = b - a := by
    apply List.length_take_of_le
    rw [List.length_drop]
    omega
  have hleft : (cellsFrom 0 (ts.take a)).filter p = cellsFrom 0 (ts.take a) := by
    refine List.filter_eq_self.2 fun c hc => (hp c).2 ?_
    have := pos_of_mem_cellsFrom hc
    omega
  have hmid : (cellsFrom a mid).filter p = [] := by
    refine List.filter_eq_nil_iff.2 fun c hc => ?_
    rw [hp c]
    have := pos_of_mem_cellsFrom hc
    omega
  have hright : (cellsFrom b (ts.drop b)).filter p = cellsFrom b (ts.drop b) := by
    refine List.filter_eq_self.2 fun c hc => (hp c).2 ?_
    have := pos_of_mem_cellsFrom hc
    omega
  calc
    (cellsFrom 0 ts).filter p = (cellsFrom 0 (ts.take a ++ (mid ++ ts.drop b))).filter p := by
      rw [hsplit]
    _ = (cellsFrom 0 (ts.take a) ++ (cellsFrom a mid ++ cellsFrom b (ts.drop b))).filter p := by
      rw [cellsFrom_append, cellsFrom_append, ha, hm, Nat.zero_add, Nat.add_sub_cancel' hab]
    _ = cellsFrom 0 (ts.take a) ++ cellsFrom b (ts.drop b) := by
      rw [List.filter_append, List.filter_append, hleft, hmid, hright, List.nil_append]

end ChatInference.Ledger
