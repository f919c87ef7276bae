import ChatInference.Cache.Hygiene
import ChatInference.Engine.Local
import ChatInference.Proofs.Cache.Staging
import Mathlib.Algebra.Group.Nat.Defs
import Mathlib.Data.List.Basic

/-!
Context shifts: which cells one takes from a window, and what the next turn of the sequence feeds.
The discarded tokens stay away exactly when the cut ends inside the window and is not so long that
its length leaves the signed words.
-/

namespace ChatInference

namespace ShiftPlan

/-- What a plan leaves of a window. -/
def kept (p : ShiftPlan) (xs : List Nat) : List Nat := xs.take p.keep ++ xs.drop p.cut

theorem plan?_bounds {keep past discard : Nat} {p : ShiftPlan}
    (h : plan? keep past discard = some p) :
    p.past = past ∧ 0 < p.discard ∧ p.cut ≤ p.past := by
  unfold plan? at h
  split at h
  case isFalse => cases h
  case isTrue hp =>
    cases h
    refine ⟨rfl, hp.2, ?_⟩
    simp only [cut, discardOf]
    split <;> omega

theorem length_kept {p : ShiftPlan} {xs : List Nat} (h : p.cut ≤ xs.length) :
    (p.kept xs).length = xs.length - p.discard := by
  simp only [kept, cut, List.length_append, List.length_take, List.length_drop] at h ⊢
  omega

end ShiftPlan

namespace Memory

theorem leftBy_of_le {n : Nat} (h : n ≤ 2 ^ 31) : leftBy n = -(n : Int) := by
  -- up to half of the words the balanced remainder is the number itself
  simp only [leftBy, UInt32.size]
  rw [Int.bmod_def]
  split <;> omega

theorem leftBy_of_gt {n : Nat} (h : 2 ^ 31 < n) (hn : n < Position.limit) :
    leftBy n = ((Position.limit - n : Nat) : Int) := by
  simp only [leftBy, Position.limit, UInt32.size] at hn ⊢
  rw [Int.bmod_def]
  split <;> omega

/-- A shift that has a plan removes the planned range and moves the rest of the window. -/
theorem contextShift_some {σ : Type} [KvCache σ] {m m' : Memory} {kv kv' : σ} {seq : SeqId}
    {plan : ShiftPlan} (h : m.contextShift kv seq = (.ok (some plan), m', kv')) :
    ShiftPlan.plan? m.policy.keepTokens (KvCache.nPast kv seq) m.policy.discardTokens = some plan ∧
      KvCache.shift (KvCache.remove kv (some seq) plan.keep (some plan.cut)).2 seq plan.cut
        (some plan.past) (leftBy plan.discard) = kv' := by
  unfold contextShift at h
  split at h
  case isFalse => cases h
  case isTrue =>
    split at h
    case h_1 => cases h
    case h_2 p hp =>
      split at h
      case h_1 => cases h
      case h_2 kv1 hr =>
        cases h
        exact ⟨hp, by rw [hr]⟩

end Memory

namespace Ledger

theorem shiftCell?_of_not_inRange {p0 : Nat} {p1 : Option Nat} {c : Cell} (delta : Int)
    (h : ¬Position.InRange p0 p1 c.pos) : shiftCell? p0 p1 delta c = some c := by
  rw [shiftCell?, if_neg h]

theorem filterMap_shiftCell?_before (ts : List Nat) {p0 : Nat} (p1 : Option Nat) (delta : Int)
    (h : ts.length ≤ p0) : (cellsFrom 0 ts).filterMap (shiftCell? p0 p1 delta) = cellsFrom 0 ts := by
  have hsome : (cellsFrom 0 ts).filterMap (shiftCell? p0 p1 delta) =
      (cellsFrom 0 ts).filterMap some := by
    apply List.filterMap_congr
    intro c hc
    apply shiftCell?_of_not_inRange
    intro hr
    have := pos_of_mem_cellsFrom hc
    have := hr.1
    omega
  rw [hsome, List.filterMap_some]

theorem filterMap_shiftCell?_down (ts : List Nat) {p0 start p1 d : Nat} (hd : d ≤ p0)
    (hstart : p0 ≤ start) (hend : start + ts.length ≤ p1) (hp1 : p1 ≤ Position.limit) :
    (cellsFrom start ts).filterMap (shiftCell? p0 (some p1) (-(d : Int))) =
      cellsFrom (start - d) ts := by
  induction ts generalizing start with
  | nil => rfl
  | cons t ts ih =>
    -- the first cell moves down by `d`, and the rest as a run that starts one further
    rw [List.length_cons] at hend
    have hr : Position.InRange p0 (some p1) start := inRange_some.2 ⟨hstart, by omega⟩
    have hmove : Position.move? start (-(d : Int)) = some (start - d) := by
      have hin : 0 ≤ (start : Int) + -(d : Int) ∧ (start : Int) + -(d : Int) < Position.limit := by
        omega
      have hto : ((start : Int) + -(d : Int)).toNat = start - d := by omega
      simp only [Position.move?, hin, and_self, if_true, hto]
    have hsucc : start + 1 - d = start - d + 1 := by omega
    have htail : (cellsFrom (start + 1) ts).filterMap (shiftCell? p0 (some p1) (-(d : Int))) =
        cellsFrom (start + 1 - d) ts := ih (by omega) (by omega)
    rw [hsucc] at htail
    simp only [cellsFrom, List.filterMap_cons, shiftCell?, hr, if_true, hmove, Option.map_some]
    exact congrArg _ htail

theorem filterMap_shiftCell?_out (ts : List Nat) {p0 start p1 up : Nat} (hstart : p0 ≤ start)
    (hend : start + ts.length ≤ p1) (hout : Position.limit ≤ p0 + up) :
    (cellsFrom start ts).filterMap (shiftCell? p0 (some p1) (up : Int)) = [] := by
  -- each cell would move past the last position, and is dropped
  rw [List.filterMap_eq_nil_iff]
  intro c hc
  have hp := pos_of_mem_cellsFrom hc
  have hr : Position.InRange p0 (some p1) c.pos := inRange_some.2 ⟨by omega, by omega⟩
  have hmove : Position.move? c.pos (up : Int) = none := by
    have hin : ¬(0 ≤ (c.pos : Int) + (up : Int) ∧ (c.pos : Int) + (up : Int) < Position.limit) := by
      omega
    simp only [Position.move?, hin, if_false]
  rw [shiftCell?, if_pos hr, hmove]
  rfl

theorem mergeSort_cellsFrom (start : Nat) (ts : List Nat) :
    ((cellsFrom start ts).mergeSort fun a b => a.pos ≤ b.pos) = cellsFrom start ts := by
  -- cells at consecutive positions are in order already
  apply List.mergeSort_of_pairwise
  refine (cellsFrom_pairwise start ts).imp ?_
  intro a b h
  exact decide_eq_true (Nat.le_of_lt h)

theorem shiftCells_nothing (ts : List Nat) {p0 : Nat} (p1 : Option Nat) (delta : Int)
    (h : ts.length ≤ p0) : shiftCells p0 p1 delta (cellsFrom 0 ts) = cellsFrom 0 ts := by
  rw [shiftCells, filterMap_shiftCell?_before ts p1 delta h, mergeSort_cellsFrom]

theorem shiftCells_closes (us vs : List Nat) {d p1 : Nat} (hend : us.length + d + vs.length ≤ p1)
    (hp1 : p1 ≤ Position.limit) :
    shiftCells (us.length + d) (some p1) (-(d : Int))
      (cellsFrom 0 us ++ cellsFrom (us.length + d) vs) = cellsFrom 0 (us ++ vs) := by
  have hleft := filterMap_shiftCell?_before us (some p1) (-(d : Int))
    (show us.length ≤ us.length + d by omega)
  have hright : (cellsFrom (us.length + d) vs).filterMap
      (shiftCell? (us.length + d) (some p1) (-(d : Int))) = cellsFrom (us.length + d - d) vs :=
    filterMap_shiftCell?_down vs (Nat.le_add_left d us.length) (Nat.le_refl _) hend hp1
  rw [Nat.add_sub_cancel] at hright
  rw [shiftCells, List.filterMap_append, hleft, hright,
    show cellsFrom 0 us ++ cellsFrom us.length vs = cellsFrom 0 (us ++ vs) by
      rw [cellsFrom_append, Nat.zero_add],
    mergeSort_cellsFrom]

theorem shiftCells_drops (us vs : List Nat) {p0 p1 up : Nat} (hus : us.length ≤ p0)
    (hend : p0 + vs.length ≤ p1) (hout : Position.limit ≤ p0 + up) :
    shiftCells p0 (some p1) (up : Int) (cellsFrom 0 us ++ cellsFrom p0 vs) = cellsFrom 0 us := by
  rw [shiftCells, List.filterMap_append, filterMap_shiftCell?_before us _ _ hus,
    filterMap_shiftCell?_out vs (Nat.le_refl _) hend hout, List.append_nil, mergeSort_cellsFrom]

end Ledger

namespace StagingCache

/-- A cache after a context shift by a plan. -/
def shiftBy (c : StagingCache) (seq : SeqId) (p : ShiftPlan) : StagingCache :=
  (c.remove (some seq) p.keep (some p.cut)).shift seq p.cut (some p.past) (Memory.leftBy p.discard)

variable {c : StagingCache} {seq : SeqId} {full : List Nat} {p : ShiftPlan}

theorem cells_remove_of_holdsAll (h : c.HoldsAll seq full) (hcut : p.cut ≤ full.length) :
    (c.ledger.remove (some seq) p.keep (some p.cut)).cells seq =
      Ledger.cellsFrom 0 (full.take p.keep) ++ Ledger.cellsFrom p.cut (full.drop p.cut) := by
  have hk : p.keep ≤ p.cut := Nat.le_add_right _ _
  rw [Ledger.cells_remove, if_pos (.inr rfl), h.cells, Ledger.filter_cellsFrom_slice full hk hcut]

theorem length_remove_of_holdsAll (h : c.HoldsAll seq full) (hcut : p.cut ≤ full.length) :
    (c.ledger.remove (some seq) p.keep (some p.cut)).length seq = full.length - p.discard := by
  have hlen := ShiftPlan.length_kept hcut
  rw [ShiftPlan.kept, List.length_append] at hlen
  rw [Ledger.length, cells_remove_of_holdsAll h hcut, List.length_append, Ledger.length_cellsFrom,
    Ledger.length_cellsFrom, hlen]

theorem cells_shiftBy (h : c.HoldsAll seq full) (hcut : p.cut ≤ full.length) :
    (c.shiftBy seq p).ledger.cells seq =
      Ledger.shiftCells p.cut (some p.past) (Memory.leftBy p.discard)
        (Ledger.cellsFrom 0 (full.take p.keep) ++ Ledger.cellsFrom p.cut (full.drop p.cut)) := by
  rw [shiftBy, shift]
  dsimp only
  rw [Ledger.cells_shift, if_pos rfl, ledger_remove, cells_remove_of_holdsAll h hcut]

/-- A cut inside the window is no tail: the whole rendering counts as ingested. -/
theorem seen_shiftBy_of_inside (h : c.HoldsAll seq full) (hcut : p.cut < full.length) :
    (c.shiftBy seq p).seen seq = full.length := by
  have hfull : full ≠ [] := List.length_pos_iff.1 (by omega)
  have hleft : ((c.ledger.remove (some seq) p.keep (some p.cut)).length seq == 0) = false := by
    have hd : p.discard ≤ p.cut := Nat.le_add_left _ _
    rw [length_remove_of_holdsAll h (Nat.le_of_lt hcut), beq_eq_false_iff_ne]
    omega
  have htail : c.reachesTail seq (some p.cut) = false := by
    simp only [reachesTail, h.posMax hfull, decide_eq_false_iff_not]
    omega
  have hseen : (c.shiftBy seq p).ingested.get? seq = some full.length := by
    change (c.remove (some seq) p.keep (some p.cut)).ingested.get? seq = _
    rw [ingested_remove, if_pos (.inr rfl), h.ingested, Option.bind_some, seenAfter]
    simp only [hleft, htail, Bool.false_eq_true, if_false]
  rw [seen, hseen, Option.getD_some]

/-- A cut up to the end of the window is a trimmed tail: only the kept head counts as ingested. -/
theorem seen_shiftBy_of_tail (h : c.HoldsAll seq full) (hcut : p.cut = full.length)
    (hkeep : 0 < p.keep) : (c.shiftBy seq p).seen seq = p.keep := by
  have hlen : full.length - p.discard = p.keep := by
    rw [← hcut, ShiftPlan.cut]
    omega
  have hfull : full ≠ [] := List.length_pos_iff.1 (by rw [← hcut, ShiftPlan.cut]; omega)
  have hleft : ((c.ledger.remove (some seq) p.keep (some p.cut)).length seq == 0) = false := by
    rw [length_remove_of_holdsAll h (Nat.le_of_eq hcut), hlen, beq_eq_false_iff_ne]
    omega
  have htail : c.reachesTail seq (some p.cut) = true := by
    have hpos : 0 < full.length := List.length_pos_iff.2 hfull
    simp only [reachesTail, h.posMax hfull, decide_eq_true_eq]
    omega
  have hseen : (c.shiftBy seq p).ingested.get? seq = some p.keep := by
    change (c.remove (some seq) p.keep (some p.cut)).ingested.get? seq = _
    rw [ingested_remove, if_pos (.inr rfl), h.ingested, Option.bind_some, seenAfter]
    simp only [hleft, htail, Bool.false_eq_true, if_false, if_true, Option.some.injEq]
    rw [length_remove_of_holdsAll h (Nat.le_of_eq hcut), h.length, hlen, ← hlen]
    omega
  rw [seen, hseen, Option.getD_some]

theorem prompt_of_empty {xs : List Nat} (h : c.ledger.cells seq = []) :
    (c.stage seq xs).1.1 = xs := by
  have hs : c.startsOver seq xs.length = true := by
    rw [startsOver, Ledger.length, h]
    rfl
  rw [stage_prompt, if_pos hs]

theorem prompt_of_run {xs ys : List Nat} (h : c.ledger.cells seq = Ledger.cellsFrom 0 xs)
    (hxs : 0 < xs.length) (hseen : c.seen seq ≤ ys.length) :
    (c.stage seq ys).1.1 = xs ++ ys.drop (c.seen seq) := by
  have hs : ¬c.startsOver seq ys.length = true := by
    rw [startsOver, Ledger.length, h, Ledger.length_cellsFrom, Bool.or_eq_true, beq_iff_eq,
      decide_eq_true_eq]
    omega
  rw [stage_prompt, if_neg hs, Ledger.tokens, h, Ledger.tokens_cellsFrom]

theorem prompt_shiftBy_of_inside (h : c.HoldsAll seq full) (hpast : p.past = full.length)
    (hcut : p.cut < full.length) (hd : p.discard ≤ 2 ^ 31) (ext : List Nat) :
    ((c.shiftBy seq p).stage seq (full ++ ext)).1.1 = p.kept full ++ ext := by
  have hk : (full.take p.keep).length = p.keep :=
    List.length_take_of_le (Nat.le_trans (Nat.le_add_right _ _) (Nat.le_of_lt hcut))
  have hcells : (c.shiftBy seq p).ledger.cells seq = Ledger.cellsFrom 0 (p.kept full) := by
    have hend : (full.take p.keep).length + p.discard + (full.drop p.cut).length ≤ p.past := by
      have hin : p.keep + p.discard < full.length := hcut
      rw [hk, List.length_drop, hpast]
      unfold ShiftPlan.cut
      omega
    have hclose := Ledger.shiftCells_closes (full.take p.keep) (full.drop p.cut) hend
      (by rw [hpast]; exact h.fits)
    -- the range between head and rest is gone, so the rest moves down to the head
    rw [hk] at hclose
    rw [cells_shiftBy h (Nat.le_of_lt hcut), Memory.leftBy_of_le hd]
    exact hclose
  have hlen : 0 < (p.kept full).length := by
    rw [ShiftPlan.length_kept (Nat.le_of_lt hcut)]
    simp only [ShiftPlan.cut] at hcut
    omega
  have hseen := seen_shiftBy_of_inside h hcut
  rw [prompt_of_run hcells hlen (by rw [hseen, List.length_append]; omega), hseen,
    List.drop_left]

/-- A cut that reaches the end of the window is undone by the next turn. -/
theorem prompt_shiftBy_of_tail (h : c.HoldsAll seq full) (hcut : p.cut = full.length)
    (ext : List Nat) : ((c.shiftBy seq p).stage seq (full ++ ext)).1.1 = full ++ ext := by
  have hk : (full.take p.keep).length = p.keep :=
    List.length_take_of_le (by rw [← hcut]; exact Nat.le_add_right _ _)
  have hcells : (c.shiftBy seq p).ledger.cells seq = Ledger.cellsFrom 0 (full.take p.keep) := by
    rw [cells_shiftBy h (Nat.le_of_eq hcut), List.drop_of_length_le (Nat.le_of_eq hcut.symm)]
    exact (congrArg _ (List.append_nil _)).trans
      (Ledger.shiftCells_nothing _ _ _ (by rw [hk]; exact Nat.le_add_right _ _))
  -- with no head left the turn starts over; else it feeds all that comes after the head
  by_cases hkeep : p.keep = 0
  · apply prompt_of_empty
    rw [hcells, hkeep, List.take_zero]
    rfl
  · have hpos : 0 < p.keep := Nat.pos_of_ne_zero hkeep
    have hseen := seen_shiftBy_of_tail h hcut hpos
    have hle : p.keep ≤ full.length := by rw [← hcut]; exact Nat.le_add_right _ _
    rw [prompt_of_run hcells (by omega) (by rw [hseen, List.length_append]; omega), hseen,
      List.drop_append_of_le_length hle, ← List.append_assoc, List.take_append_drop]

theorem length_prompt_shiftBy_of_long (h : c.HoldsAll seq full) (hpast : p.past = full.length)
    (hcut : p.cut < full.length) (hd : 2 ^ 31 < p.discard) (ext : List Nat) :
    ((c.shiftBy seq p).stage seq (full ++ ext)).1.1.length ≠ (p.kept full ++ ext).length := by
  have hk : (full.take p.keep).length = p.keep :=
    List.length_take_of_le (Nat.le_trans (Nat.le_add_right _ _) (Nat.le_of_lt hcut))
  have hdc : p.discard ≤ p.cut := Nat.le_add_left _ _
  have hkd : p.cut = p.keep + p.discard := rfl
  have hfits := h.fits
  have hcells : (c.shiftBy seq p).ledger.cells seq = Ledger.cellsFrom 0 (full.take p.keep) := by
    have hbefore : (full.take p.keep).length ≤ p.cut := by
      rw [hk]
      omega
    have hend : p.cut + (full.drop p.cut).length ≤ p.past := by
      rw [List.length_drop, hpast]
      omega
    have hout : Position.limit ≤ p.cut + (Position.limit - p.discard) := by omega
    have hdrop := Ledger.shiftCells_drops (full.take p.keep) (full.drop p.cut) hbefore hend hout
    rw [cells_shiftBy h (Nat.le_of_lt hcut), Memory.leftBy_of_gt hd (by omega)]
    exact hdrop
  -- only the head is left, which is shorter than what the plan keeps
  have hlen := ShiftPlan.length_kept (Nat.le_of_lt hcut)
  rw [List.length_append, hlen]
  by_cases hkeep : p.keep = 0
  · rw [prompt_of_empty (by rw [hcells, hkeep, List.take_zero]; rfl), List.length_append]
    omega
  · have hseen := seen_shiftBy_of_inside h hcut
    rw [prompt_of_run hcells (by omega) (by rw [hseen, List.length_append]; omega), hseen,
      List.drop_left, List.length_append, hk]
    omega

end StagingCache

theorem LocalEngine.contextShift_cache {m m' : Memory} {e e' : LocalEngine} {seq : SeqId}
    {plan : ShiftPlan} (h : m.contextShift e seq = (.ok (some plan), m', e')) :
    ShiftPlan.plan? m.policy.keepTokens (e.cache.ledger.nextPos seq) m.policy.discardTokens =
        some plan ∧
      e'.cache = e.cache.shiftBy seq plan := by
  obtain ⟨hp, he⟩ := Memory.contextShift_some h
  refine ⟨hp, ?_⟩
  rw [← he]
  rfl

/-- After a context shift of a wholly ingested rendering, the next turn feeds the rendering without
the discarded slice exactly when the cut ends before the window does and its length is no more than
half of the words; a cut up to the end comes back whole. -/
theorem stage_after_contextShift_iff {m m' : Memory} {e e' : LocalEngine} {seq : SeqId}
    {full : List Nat} {plan : ShiftPlan} (hall : e.cache.HoldsAll seq full)
    (hshift : m.contextShift e seq = (.ok (some plan), m', e')) (ext : List Nat) :
    ((e'.cache.stage seq (full ++ ext)).1.1 = plan.kept full ++ ext ↔
        plan.cut < full.length ∧ plan.discard ≤ 2 ^ 31) ∧
      (plan.cut = full.length → (e'.cache.stage seq (full ++ ext)).1.1 = full ++ ext) := by
  obtain ⟨hplan, hcache⟩ := LocalEngine.contextShift_cache hshift
  rw [hall.nextPos] at hplan
  obtain ⟨hpast, hpos, hcut⟩ := ShiftPlan.plan?_bounds hplan
  rw [hpast] at hcut
  rw [hcache]
  refine ⟨⟨fun h => ?_, fun h => ?_⟩, fun h => ?_⟩
  · have hlen := congrArg List.length h
    rcases Nat.lt_or_eq_of_le hcut with hin | htail
    · refine ⟨hin, Nat.le_of_not_lt fun hd => ?_⟩
      exact StagingCache.length_prompt_shiftBy_of_long hall hpast hin hd ext hlen
    · -- all of the rendering is fed, and the discarded slice is not empty
      rw [StagingCache.prompt_shiftBy_of_tail hall htail, List.length_append, List.length_append,
        ShiftPlan.length_kept hcut] at hlen
      simp only [ShiftPlan.cut] at htail
      omega
  · exact StagingCache.prompt_shiftBy_of_inside hall hpast h.1 h.2 ext
  · exact StagingCache.prompt_shiftBy_of_tail hall h ext

/-- An engine whose first sequence has ingested the tokens 1 to 4. -/
def fourTokens : LocalEngine := { cache := (({} : StagingCache).stage 1 [1, 2, 3, 4]).2 }

theorem fourTokens_holdsAll : fourTokens.cache.HoldsAll 1 [1, 2, 3, 4] :=
  StagingCache.holdsAll_of_first_stage {} 1 [1, 2, 3, 4] rfl (by decide)

/-- A memory whose shifts keep one position and discard as many as they are told. -/
def keepingOne (discard : Nat) : Memory := { policy := { keepTokens := 1, discardTokens := discard } }

theorem stage_after_contextShift_four :
    fourTokens.cache.HoldsAll 1 [1, 2, 3, 4] ∧
      ∃ m' e', (keepingOne 2).contextShift fourTokens 1 = (.ok (some ⟨1, 2, 4⟩), m', e') ∧
        (e'.cache.stage 1 [1, 2, 3, 4, 5]).1.1 = [1, 4, 5] := by
  have hs : (keepingOne 2).contextShift fourTokens 1 = (.ok (some ⟨1, 2, 4⟩),
      ((keepingOne 2).contextShift fourTokens 1).2.1,
      ((keepingOne 2).contextShift fourTokens 1).2.2) := rfl
  refine ⟨fourTokens_holdsAll, _, _, hs, ?_⟩
  exact (stage_after_contextShift_iff fourTokens_holdsAll hs [5]).1.2 (by decide)

/-- Discarding one token more, up to the end of the window, feeds all of them again. -/
theorem discarded_tail_comes_back :
    fourTokens.cache.HoldsAll 1 [1, 2, 3, 4] ∧
      ∃ m' e', (keepingOne 3).contextShift fourTokens 1 = (.ok (some ⟨1, 3, 4⟩), m', e') ∧
        (e'.cache.stage 1 ([1, 2, 3, 4] ++ [5])).1.1 = [1, 2, 3, 4, 5] ∧
        (e'.cache.stage 1 ([1, 2, 3, 4] ++ [5])).1.1 ≠
          (ShiftPlan.mk 1 3 4).kept [1, 2, 3, 4] ++ [5] := by
  have hs : (keepingOne 3).contextShift fourTokens 1 = (.ok (some ⟨1, 3, 4⟩),
      ((keepingOne 3).contextShift fourTokens 1).2.1,
      ((keepingOne 3).contextShift fourTokens 1).2.2) := rfl
  have hprompt :
      (((keepingOne 3).contextShift fourTokens 1).2.2.cache.stage 1 ([1, 2, 3, 4] ++ [5])).1.1 =
        [1, 2, 3, 4, 5] := by
    rw [(LocalEngine.contextShift_cache hs).2]
    exact StagingCache.prompt_shiftBy_of_tail fourTokens_holdsAll rfl [5]
  refine ⟨fourTokens_holdsAll, _, _, hs, hprompt, ?_⟩
  rw [hprompt]
  decide

end ChatInference
