import ChatInference.Proofs.Cache.Head

/-!
What a context shift makes of every cell. The head of the window stays as it is, the discarded range is
gone, and all that stood after it has moved down by the length of the range, so that the window ends
that much earlier. No other sequence takes part, and where there is nothing to discard nothing happens.
-/

namespace ChatInference

/-- The cell so many positions further down. -/
def Cell.down (n : Nat) (c : Cell) : Cell := { c with pos := c.pos - n }

namespace Ledger

/-- A row of cells after the `n` positions from `start` on were taken out of it. -/
def closeUp (start n : Nat) (cells : List Cell) : List Cell :=
  (cells.filter fun c => c.pos < start) ++
    (cells.filter fun c => start + n ≤ c.pos).map (Cell.down n)

variable {l l' : Ledger} {seq : SeqId} {cells : List Cell} {start n past : Nat}

/-- In an ascending row, the cells below a position come before all others. -/
theorem Ascending.split (h : Ascending cells) (p : Nat) :
    cells = (cells.filter fun c => c.pos < p) ++ cells.filter fun c => p ≤ c.pos := by
  induction cells with
  | nil => rfl
  | cons c cells ih =>
    obtain ⟨hc, htail⟩ := List.pairwise_cons.1 h
    by_cases hp : c.pos < p
    · rw [List.filter_cons_of_pos (by simpa using hp), List.filter_cons_of_neg (by simpa using hp)]
      exact congrArg (c :: ·) (ih htail)
    · -- the first cell is past the position already, and so are all after it
      have hbelow : cells.filter (fun c => c.pos < p) = [] := by
        apply List.filter_eq_nil_iff.2
        intro x hx
        have := hc x hx
        simp only [decide_eq_true_eq]
        omega
      have habove : cells.filter (fun c => p ≤ c.pos) = cells := by
        apply List.filter_eq_self.2
        intro x hx
        have := hc x hx
        simp only [decide_eq_true_eq]
        omega
      rw [List.filter_cons_of_neg (by simpa using hp), List.filter_cons_of_pos (by simpa using hp),
        hbelow, habove, List.nil_append]

/-- Without a range, an ascending row is what stands before the range and what stands after it. -/
theorem Ascending.filter_outside (h : Ascending cells) (start n : Nat) :
    (cells.filter fun c => !decide (Position.InRange start (some (start + n)) c.pos)) =
      (cells.filter fun c => c.pos < start) ++ cells.filter fun c => start + n ≤ c.pos := by
  have houtside (c : Cell) :
      (!decide (Position.InRange start (some (start + n)) c.pos)) = true ↔
        c.pos < start ∨ start + n ≤ c.pos := by
    rw [Bool.not_eq_true', decide_eq_false_iff_not, inRange_some]
    omega
  calc
    _ = ((cells.filter fun c => !decide (Position.InRange start (some (start + n)) c.pos)).filter
          fun c => c.pos < start) ++
        (cells.filter fun c => !decide (Position.InRange start (some (start + n)) c.pos)).filter
          fun c => start ≤ c.pos :=
      Ascending.split (List.Pairwise.sublist List.filter_sublist h) start
    _ = _ := by
      rw [List.filter_filter, List.filter_filter]
      congr 1
      · apply List.filter_congr
        intro c _
        rw [Bool.eq_iff_iff, Bool.and_eq_true, houtside]
        simp only [decide_eq_true_eq]
        omega
      · apply List.filter_congr
        intro c _
        rw [Bool.eq_iff_iff, Bool.and_eq_true, houtside]
        simp only [decide_eq_true_eq]
        omega

theorem mem_closeUp {x : Cell} :
    x ∈ closeUp start n cells ↔
      (x ∈ cells ∧ x.pos < start) ∨ ∃ c ∈ cells, start + n ≤ c.pos ∧ c.down n = x := by
  simp only [closeUp, List.mem_append, List.mem_map, List.mem_filter, decide_eq_true_eq, and_assoc]

theorem ascending_closeUp (h : Ascending cells) (start n : Nat) :
    Ascending (closeUp start n cells) := by
  have hsub (p : Cell → Bool) : Ascending (cells.filter p) :=
    List.Pairwise.sublist List.filter_sublist h
  refine List.pairwise_append.2 ⟨hsub _, ?_, ?_⟩
  · apply List.pairwise_map.2
    refine (hsub fun c => start + n ≤ c.pos).imp_of_mem ?_
    intro a b ha _ hab
    -- both move down by as much, and neither stands too low for it
    simp only [List.mem_filter, decide_eq_true_eq] at ha
    simp only [Cell.down]
    omega
  · intro a ha b hb
    obtain ⟨c, hc, rfl⟩ := List.mem_map.1 hb
    simp only [List.mem_filter, decide_eq_true_eq] at ha hc
    simp only [Cell.down]
    omega

/-- The window ends earlier by what was taken out of it, unless that was its end. -/
theorem nextPos_closeUp (h : l'.cells seq = closeUp start n (l.cells seq))
    (hinside : start + n < l.nextPos seq) : l'.nextPos seq = l.nextPos seq - n := by
  apply Nat.le_antisymm
  · apply nextPos_le_iff.2
    intro x hx
    rw [h, mem_closeUp] at hx
    rcases hx with ⟨-, hlow⟩ | ⟨c, hc, -, rfl⟩
    · omega
    · have := pos_lt_nextPos hc
      simp only [Cell.down]
      omega
  · -- the last cell of the window stands after the range, and is the last one still
    have hpos : 0 < l.nextPos seq := by omega
    obtain ⟨c, hc, hlast⟩ := exists_last hpos
    have hmoved : c.down n ∈ l'.cells seq := by
      rw [h, mem_closeUp]
      exact .inr ⟨c, hc, by omega, rfl⟩
    have hlt := pos_lt_nextPos hmoved
    simp only [Cell.down] at hlt
    omega

theorem shiftCell?_down {c : Cell} (hin : Position.InRange (start + n) (some past) c.pos)
    (hfits : past ≤ Position.limit) :
    shiftCell? (start + n) (some past) (-(n : Int)) c = some (c.down n) := by
  obtain ⟨hge, hlt⟩ := inRange_some.1 hin
  have hmove : Position.move? c.pos (-(n : Int)) = some (c.pos - n) := by
    have hword : 0 ≤ (c.pos : Int) + -(n : Int) ∧ (c.pos : Int) + -(n : Int) < Position.limit := by
      omega
    have hto : ((c.pos : Int) + -(n : Int)).toNat = c.pos - n := by omega
    simp only [Position.move?, hword, and_self, if_true, hto]
  rw [shiftCell?, if_pos hin, hmove]
  rfl

/-- Taking the range out and moving down what stands after it closes the row up. -/
theorem shiftCells_outside (h : Ascending cells) (hpast : ∀ c ∈ cells, c.pos < past)
    (hfits : past ≤ Position.limit) (start n : Nat) :
    shiftCells (start + n) (some past) (-(n : Int))
        (cells.filter fun c => !decide (Position.InRange start (some (start + n)) c.pos)) =
      closeUp start n cells := by
  let move := shiftCell? (start + n) (some past) (-(n : Int))
  have hbelow : (cells.filter fun c => c.pos < start).filterMap move =
      cells.filter fun c => c.pos < start := by
    calc
      _ = (cells.filter fun c => c.pos < start).filterMap some := by
        apply List.filterMap_congr
        intro c hc
        simp only [List.mem_filter, decide_eq_true_eq] at hc
        apply shiftCell?_of_not_inRange
        rw [inRange_some]
        omega
      _ = _ := List.filterMap_some
  have habove : (cells.filter fun c => start + n ≤ c.pos).filterMap move =
      (cells.filter fun c => start + n ≤ c.pos).map (Cell.down n) := by
    rw [← List.filterMap_eq_map]
    apply List.filterMap_congr
    intro c hc
    simp only [List.mem_filter, decide_eq_true_eq] at hc
    exact shiftCell?_down (inRange_some.2 ⟨hc.2, hpast c hc.1⟩) hfits
  have hmoved : (cells.filter fun c =>
      !decide (Position.InRange start (some (start + n)) c.pos)).filterMap move =
        closeUp start n cells := by
    rw [h.filter_outside, List.filterMap_append, hbelow, habove]
    rfl
  -- what comes out is in order, so that there is nothing to sort
  have hasc : Ascending ((cells.filter fun c =>
      !decide (Position.InRange start (some (start + n)) c.pos)).filterMap move) := by
    rw [hmoved]
    exact ascending_closeUp h start n
  rw [shiftCells_of_ascending hasc, hmoved]

/-- What a shift by a plan makes of a sequence whose positions are in the lower half of the words. -/
theorem cells_shiftPlan (h : Ascending (l.cells seq)) {p : ShiftPlan}
    (hpast : p.past = l.nextPos seq) (hhalf : l.nextPos seq ≤ 2 ^ 31) (hcut : p.cut ≤ p.past)
    (s : SeqId) :
    ((l.remove (some seq) p.keep (some p.cut)).shift seq p.cut (some p.past)
        (Memory.leftBy p.discard)).cells s =
      if s = seq then closeUp p.keep p.discard (l.cells seq) else l.cells s := by
  have hdiscard : p.discard ≤ p.cut := Nat.le_add_left _ _
  rw [cells_shift, Memory.leftBy_of_le (by omega)]
  by_cases hs : s = seq
  · rw [if_pos hs, if_pos hs, cells_remove, if_pos (.inr rfl)]
    apply shiftCells_outside h
    · intro c hc
      rw [hpast]
      exact pos_lt_nextPos hc
    · rw [hpast]
      exact Nat.le_trans hhalf (by decide)
  · rw [if_neg hs, if_neg hs]
    exact sameBut_remove l seq _ _ s hs

end Ledger

namespace Memory

variable {σ : Type} [KvCache σ] {m : Memory} {kv : σ} {seq : SeqId}

theorem contextShift_of_plan {plan : ShiftPlan} (hon : m.policy.contextShifting = true)
    (hplan : ShiftPlan.plan? m.policy.keepTokens (KvCache.nPast kv seq) m.policy.discardTokens =
      some plan)
    (haccepts : (KvCache.remove kv (some seq) plan.keep (some plan.cut)).1 = true) :
    m.contextShift kv seq =
      (.ok (some plan), m.count fun n => { n with contextShifts := n.contextShifts + 1 },
        KvCache.shift (KvCache.remove kv (some seq) plan.keep (some plan.cut)).2 seq plan.cut
          (some plan.past) (leftBy plan.discard)) := by
  unfold contextShift
  rw [if_pos hon, hplan]
  dsimp only
  split
  case h_1 kv' hr =>
    rw [hr] at haccepts
    cases haccepts
  case h_2 kv' hr => rw [hr]

theorem contextShift_of_no_plan (hon : m.policy.contextShifting = true)
    (hplan : ShiftPlan.plan? m.policy.keepTokens (KvCache.nPast kv seq) m.policy.discardTokens =
      none) : m.contextShift kv seq = (.ok none, m, kv) := by
  unfold contextShift
  rw [if_pos hon, hplan]

open Ledger (Ascending)

/-- A shift of a window whose positions ascend, with gaps or without, and lie in the lower half of the
words: the cells below the kept positions stay, the discarded range is gone, and every cell after it
is there in the same order, moved down by as much as was discarded. Where there is nothing to
discard, nothing changes at all. -/
theorem contextShift_closes_up {c : LedgerCache} (hon : m.policy.contextShifting = true)
    (hasc : Ascending (c.ledger.cells seq)) (hhalf : ∀ x ∈ c.ledger.cells seq, x.pos < 2 ^ 31) :
    let past := KvCache.nPast c seq
    let keep := m.policy.keepTokens
    let told := m.policy.discardTokens
    let d := if 0 < told then min told (past - keep) else (past - keep) / 2
    let out := m.contextShift c seq
    let after := out.2.2.ledger
    if keep < past ∧ 0 < d then
      out.1 = .ok (some ⟨keep, d, past⟩) ∧
        out.2.1 = { m with
          counters := { m.counters with contextShifts := m.counters.contextShifts + 1 } } ∧
        after.cells seq = ((c.ledger.cells seq).filter fun x => x.pos < keep) ++
          ((c.ledger.cells seq).filter fun x => keep + d ≤ x.pos).map
            (fun x => { x with pos := x.pos - d }) ∧
        Ascending (after.cells seq) ∧
        (d < past - keep → KvCache.nPast out.2.2 seq = past - d) ∧
        ∀ s, s ≠ seq → after.cells s = c.ledger.cells s
    else out = (.ok none, m, c) := by
  intro past keep told d out after
  have hpast : past = c.ledger.nextPos seq := nPast_eq c seq
  have hword : c.ledger.nextPos seq ≤ 2 ^ 31 := Ledger.nextPos_le_iff.2 hhalf
  have hplan : ShiftPlan.plan? keep past told = if keep < past ∧ 0 < d then some ⟨keep, d, past⟩
      else none := rfl
  split
  case isFalse hnothing =>
    rw [if_neg hnothing] at hplan
    exact contextShift_of_no_plan hon hplan
  case isTrue hsome =>
    rw [if_pos hsome] at hplan
    obtain ⟨-, -, hcut⟩ := ShiftPlan.plan?_bounds hplan
    have hout : out = _ := contextShift_of_plan hon hplan rfl
    have hcells (s : SeqId) : after.cells s =
        if s = seq then Ledger.closeUp keep d (c.ledger.cells seq) else c.ledger.cells s := by
      dsimp only [after]
      rw [hout]
      exact Ledger.cells_shiftPlan hasc hpast hword hcut s
    have hseq := (hcells seq).trans (if_pos rfl)
    refine ⟨congrArg Prod.fst hout, congrArg (fun o => o.2.1) hout, hseq, ?_, ?_, ?_⟩
    · rw [hseq]
      exact Ledger.ascending_closeUp hasc keep d
    · intro hinside
      rw [nPast_eq, hpast]
      apply Ledger.nextPos_closeUp hseq
      omega
    · intro s hs
      exact (hcells s).trans (if_neg hs)

/-- Ten positions, without cells at two of them, beside another sequence. -/
def gapped : LedgerCache :=
  { nCtx := 16, ledger :=
      ((({} : Ledger).append 1 (List.range 10)).append 2 [30, 31]).remove (some 1) 3 (some 5) }

/-- Of the three positions that are discarded, two are empty. -/
theorem contextShift_closes_up_gapped :
    let m : Memory := { policy := { keepTokens := 2, discardTokens := 3 } }
    let out := m.contextShift gapped 1
    Ascending (gapped.ledger.cells 1) ∧
      gapped.ledger.cells 1 = [⟨0, 0⟩, ⟨1, 1⟩, ⟨2, 2⟩, ⟨5, 5⟩, ⟨6, 6⟩, ⟨7, 7⟩, ⟨8, 8⟩, ⟨9, 9⟩] ∧
      out.1 = .ok (some ⟨2, 3, 10⟩) ∧ out.2.1.counters.contextShifts = 1 ∧
      out.2.2.ledger.cells 1 = [⟨0, 0⟩, ⟨1, 1⟩, ⟨2, 5⟩, ⟨3, 6⟩, ⟨4, 7⟩, ⟨5, 8⟩, ⟨6, 9⟩] ∧
      KvCache.nPast out.2.2 1 = 7 ∧ out.2.2.ledger.cells 2 = gapped.ledger.cells 2 := by
  intro m out
  have hasc : Ascending (gapped.ledger.cells 1) := by decide
  have hhalf : ∀ x ∈ gapped.ledger.cells 1, x.pos < 2 ^ 31 := by decide
  have h := contextShift_closes_up (m := m) rfl hasc hhalf
  rw [if_pos (by decide)] at h
  obtain ⟨hplan, hcount, hcells, -, hpast, hothers⟩ := h
  refine ⟨hasc, by decide, hplan, ?_, ?_, hpast (by decide), hothers 2 (by decide)⟩
  · rw [hcount]
  · rw [hcells]
    decide

end Memory

end ChatInference
