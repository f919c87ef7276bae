import ChatInference.Proofs.Cache.Refusals
import Mathlib.Algebra.BigOperators.Intervals

/-!
What a partial deletion counts. It answers with the length of its range, whoever stands in it. Positions
that were emptied before count with the others, and a position that several sequences hold counts once
where all of them lose a cell. So the answer is the number of cells that leave the cache only where the
two make up for each other; for a single sequence, where every position of the range is held.
-/

namespace ChatInference

/-- What is counted under one key, as a sum over all. -/
theorem Keyed.sum_at_key {α : Type} (m : Keyed α) (k : Nat) (f : α → Nat) :
    (m.entries.map fun e => if e.1 = k then f e.2 else 0).sum = ((m.get? k).map f).getD 0 := by
  obtain ⟨es, hsorted⟩ := m
  unfold get?
  dsimp only
  induction es with
  | nil => rfl
  | cons e es ih =>
    obtain ⟨hlt, hes⟩ := List.pairwise_cons.1 hsorted
    rw [List.map_cons, List.sum_cons, ih hes, List.lookup_cons]
    by_cases hk : e.1 = k
    · -- no later entry has the key
      have hnone : es.lookup k = none := by
        rw [List.lookup_eq_none_iff]
        intro d hd
        have := hlt d hd
        rw [bne_iff_ne]
        omega
      rw [if_pos hk, hnone, hk]
      simp
    · have hne : (k == e.1) = false := by simpa using Ne.symm hk
      rw [if_neg hk, hne, Nat.zero_add]

namespace Ledger

/-- The cells of one sequence, or of all. -/
def cellsFor (l : Ledger) : Option SeqId → List Cell
  | some seq => l.cells seq
  | none => l.seqs.values.flatten

/-- How many cells of one sequence, or of all, stand at a position. -/
def holders (l : Ledger) (target : Option SeqId) (pos : Nat) : Nat :=
  (l.cellsFor target).countP fun c => c.pos = pos

/-- How many positions of a range are held by no cell. -/
def vacant (l : Ledger) (target : Option SeqId) (range : Nat × Nat) : Nat :=
  ((Finset.Ico range.1 range.2).filter fun pos => l.holders target pos = 0).card

/-- How many cells of a range stand beside another one at their position. -/
def crowded (l : Ledger) (target : Option SeqId) (range : Nat × Nat) : Nat :=
  ∑ pos ∈ Finset.Ico range.1 range.2, (l.holders target pos - 1)

/-- How many cells of one sequence, or of all, stand in a range. -/
def standing (l : Ledger) (target : Option SeqId) (range : Nat × Nat) : Nat :=
  (l.cellsFor target).countP fun c => Position.InRange range.1 (some range.2) c.pos

theorem usedCells_eq_sum (l : Ledger) :
    l.usedCells = (l.seqs.entries.map fun e => e.2.length).sum := by
  unfold usedCells Keyed.values
  rw [List.length_flatten, List.map_map]
  rfl

theorem standing_eq_sum (l : Ledger) (target : Option SeqId) (range : Nat × Nat) :
    l.standing target range = (l.seqs.entries.map fun e =>
      if target = none ∨ target = some e.1 then
        e.2.countP fun c => Position.InRange range.1 (some range.2) c.pos
      else 0).sum := by
  cases target with
  | none =>
    unfold standing cellsFor Keyed.values
    dsimp only
    rw [List.countP_flatten, List.map_map]
    simp only [true_or, if_true]
    rfl
  | some seq =>
    have hsum := l.seqs.sum_at_key seq fun cells =>
      cells.countP fun c => Position.InRange range.1 (some range.2) c.pos
    unfold standing cellsFor cells
    simp only [reduceCtorEq, Option.some.injEq, false_or, eq_comm (a := seq)]
    rw [hsum]
    cases l.seqs.get? seq <;> rfl

/-- Sequences that are empty hold no cells. -/
theorem sum_length_filter_nonempty (es : List (Nat × List Cell)) :
    ((es.filter fun e => !e.2.isEmpty).map fun e => e.2.length).sum =
      (es.map fun e => e.2.length).sum := by
  induction es with
  | nil => rfl
  | cons e es ih =>
    rw [List.filter_cons, List.map_cons, List.sum_cons, ← ih]
    split
    case isTrue => rw [List.map_cons, List.sum_cons]
    case isFalse hempty =>
      have hnil : e.2 = [] := by simpa using hempty
      rw [hnil, List.length_nil, Nat.zero_add]

theorem usedCells_remove (l : Ledger) (target : Option SeqId) (range : Nat × Nat) :
    (l.remove target range.1 (some range.2)).usedCells + l.standing target range =
      l.usedCells := by
  rw [usedCells_eq_sum, usedCells_eq_sum, standing_eq_sum]
  unfold remove Keyed.filter Keyed.map
  dsimp only
  rw [sum_length_filter_nonempty, List.map_map]
  -- sequence by sequence, the cells of the range and the others
  induction l.seqs.entries with
  | nil => rfl
  | cons e es ih =>
    have hown : (if target = none ∨ target = some e.1 then
          e.2.filter fun c => !decide (Position.InRange range.1 (some range.2) c.pos)
        else e.2).length + (if target = none ∨ target = some e.1 then
          e.2.countP fun c => Position.InRange range.1 (some range.2) c.pos
        else 0) = e.2.length := by
      split
      · have hboth := List.length_eq_countP_add_countP
          (fun c : Cell => decide (Position.InRange range.1 (some range.2) c.pos)) (l := e.2)
        simp only [decide_eq_true_eq, decide_not] at hboth
        rw [← List.countP_eq_length_filter, Nat.add_comm, hboth]
      · rw [Nat.add_zero]
    simp only [List.map_cons, List.sum_cons, Function.comp_apply] at ih ⊢
    omega

theorem standing_eq_sum_holders (l : Ledger) (target : Option SeqId) (range : Nat × Nat) :
    l.standing target range = ∑ pos ∈ Finset.Ico range.1 range.2, l.holders target pos := by
  unfold standing holders
  induction l.cellsFor target with
  | nil => simp
  | cons c cells ih =>
    simp only [List.countP_cons, Finset.sum_add_distrib, ih, decide_eq_true_eq]
    simp [inRange_some]

/-- The cells of a range and the positions that nobody holds there make up its length, but for those
that share a position. -/
theorem standing_add_vacant (l : Ledger) (target : Option SeqId) (range : Nat × Nat) :
    l.standing target range + l.vacant target range =
      range.2 - range.1 + l.crowded target range := by
  have heach (pos : Nat) : l.holders target pos + (if l.holders target pos = 0 then 1 else 0) =
      1 + (l.holders target pos - 1) := by
    split <;> omega
  calc
    l.standing target range + l.vacant target range =
        ∑ pos ∈ Finset.Ico range.1 range.2,
          (l.holders target pos + if l.holders target pos = 0 then 1 else 0) := by
      rw [standing_eq_sum_holders, vacant, Finset.card_filter, Finset.sum_add_distrib]
    _ = ∑ pos ∈ Finset.Ico range.1 range.2, (1 + (l.holders target pos - 1)) :=
      Finset.sum_congr rfl fun pos _ => heach pos
    _ = range.2 - range.1 + l.crowded target range := by
      rw [Finset.sum_add_distrib, ← Finset.card_eq_sum_ones, Nat.card_Ico, crowded]

/-- No two cells of a sequence in order share a position. -/
theorem InOrder.holders_le_one {l : Ledger} (h : l.InOrder) (seq : SeqId) (pos : Nat) :
    l.holders (some seq) pos ≤ 1 := by
  have hnodup := (h.ascending seq).nodup_positions
  have hcount := List.nodup_iff_count_le_one.1 hnodup pos
  unfold holders
  rw [List.count, List.countP_map] at hcount
  refine Nat.le_trans (Nat.le_of_eq (List.countP_congr fun c _ => ?_)) hcount
  simp

theorem InOrder.crowded_eq_zero {l : Ledger} (h : l.InOrder) (seq : SeqId) (range : Nat × Nat) :
    l.crowded (some seq) range = 0 := by
  unfold crowded
  apply Finset.sum_eq_zero
  intro pos _
  have := h.holders_le_one seq pos
  omega

theorem vacant_eq_zero_iff {l : Ledger} {target : Option SeqId} {range : Nat × Nat} :
    l.vacant target range = 0 ↔
      ∀ pos, range.1 ≤ pos → pos < range.2 → ∃ c ∈ l.cellsFor target, c.pos = pos := by
  unfold vacant
  rw [Finset.card_eq_zero, Finset.filter_eq_empty_iff]
  simp only [Finset.mem_Ico, holders, List.countP_eq_zero, decide_eq_true_eq, not_forall, not_not,
    and_imp, exists_prop]

end Ledger

open LedgerBacked (ledgerOf)

namespace Memory

/-- The range of a partial deletion, from its start to itself where there is none. -/
def rangeFor {σ : Type} [KvCache σ] (m : Memory) (kv : σ) (target : Option SeqId)
    (strategy : DeletionStrategy) : Nat × Nat :=
  (strategy.range? m.policy.keepTokens (KvCache.nextOf kv target)).getD (0, 0)

variable {σ : Type} [KvCache σ] [LedgerBacked σ] {m : Memory} {kv : σ} {target : Option SeqId}
  {strategy : DeletionStrategy} {n : Nat}

/-- A partial deletion that succeeds answers with the length of its range, and takes the cells that
stand there. -/
theorem clearPartial_of_ok (h : (m.clearPartial kv target strategy).1 = .ok n) :
    n = (m.rangeFor kv target strategy).2 - (m.rangeFor kv target strategy).1 ∧
      (ledgerOf (m.clearPartial kv target strategy).2.2).usedCells +
        (ledgerOf kv).standing target (m.rangeFor kv target strategy) = (ledgerOf kv).usedCells := by
  unfold rangeFor
  rcases m.clearPartial_cases kv target strategy with ⟨-, e, heq⟩ | ⟨-, hrange, heq⟩ |
    ⟨range, -, hrange, ⟨-, e, kv', -, heq⟩ | ⟨-, kv', hledger, heq⟩⟩
  · rw [heq] at h
    cases h
  · rw [heq] at h
    cases h
    rw [hrange, heq]
    refine ⟨rfl, ?_⟩
    -- no position lies below zero
    have hnone : (ledgerOf kv).standing target (0, 0) = 0 := by
      rw [Ledger.standing_eq_sum_holders]
      rfl
    exact congrArg ((ledgerOf kv).usedCells + ·) hnone
  · rw [heq] at h
    cases h
  · rw [heq] at h
    cases h
    rw [hrange, heq]
    refine ⟨rfl, ?_⟩
    dsimp only [Option.getD_some]
    rw [hledger]
    exact (ledgerOf kv).usedCells_remove target range

end Memory

namespace Tended

variable {t : Tended}

/-- After any run of appends and upkeep, let a partial deletion of one sequence, or of all, succeed. The
cells that leave the cache and the positions of the range that were vacant make up the answer and the
cells that shared a position; so the answer is the number of cells that leave exactly where as many
positions were vacant as cells had to share one. Of a single sequence no two cells do: the answer is
never too low, and right exactly where every position of the range is held. -/
theorem answer_is_removed_iff {policy : MemoryPolicy} {nCtx : Nat} (hrun : Run (.fresh policy nCtx) t)
    {target : Option SeqId} {strategy : DeletionStrategy} {n : Nat}
    (hdone : (t.memory.clearPartial t.cache target strategy).1 = .ok n) :
    let range := t.memory.rangeFor t.cache target strategy
    let before := t.cache.ledger
    let after := (t.memory.clearPartial t.cache target strategy).2.2.ledger
    ∃ removed, after.usedCells + removed = before.usedCells ∧
      removed + before.vacant target range = n + before.crowded target range ∧
      (n = removed ↔ before.vacant target range = before.crowded target range) ∧
      ∀ seq, target = some seq → removed ≤ n ∧
        (n = removed ↔
          ∀ pos, range.1 ≤ pos → pos < range.2 → ∃ c ∈ before.cells seq, c.pos = pos) := by
  intro range before after
  obtain ⟨hn, hused⟩ := Memory.clearPartial_of_ok hdone
  have hbalance := before.standing_add_vacant target range
  rw [← hn] at hbalance
  refine ⟨before.standing target range, hused, hbalance, by omega, ?_⟩
  rintro seq rfl
  have hone : before.crowded (some seq) range = 0 :=
    (inOrder_run Ledger.inOrder_empty hrun).crowded_eq_zero seq range
  have hheld : before.vacant (some seq) range = 0 ↔
      ∀ pos, range.1 ≤ pos → pos < range.2 → ∃ c ∈ before.cells seq, c.pos = pos :=
    Ledger.vacant_eq_zero_iff
  refine ⟨by omega, ?_⟩
  rw [← hheld]
  omega

/-- Eight tokens in one sequence and six in another. -/
def eightAndSix : Tended :=
  let t := holding { cacheStrategy := .lru } 16 1 (List.range 8)
  { t with cache := { t.cache with ledger := t.cache.ledger.append 2 (List.range 6) } }

/-- The head of the first sequence is gone. -/
def headTrimmed : Tended :=
  let op : Upkeep := .clearPartial (some 1) .lru
  ⟨(op.run eightAndSix.memory eightAndSix.cache).1, (op.run eightAndSix.memory eightAndSix.cache).2⟩

theorem run_headTrimmed : Run (.fresh { cacheStrategy := .lru } 16) headTrimmed := by
  have h₁ : (fresh { cacheStrategy := .lru } 16).Step
      (holding { cacheStrategy := .lru } 16 1 (List.range 8)) := .append (by decide)
  have h₂ : (holding { cacheStrategy := .lru } 16 1 (List.range 8)).Step eightAndSix :=
    .append (by decide)
  exact ((Relation.ReflTransGen.single h₁).tail h₂).tail (.upkeep (.clearPartial (some 1) .lru))

/-- The two positions that the first sequence has lost are still held by the second, once each. -/
theorem answer_is_removed_iff_two :
    ∃ removed, (headTrimmed.memory.clearPartial headTrimmed.cache none .lru).1 = .ok 2 ∧
      (headTrimmed.memory.clearPartial headTrimmed.cache none .lru).2.2.ledger.usedCells + removed =
        headTrimmed.cache.ledger.usedCells ∧ removed = 2 := by
  have hdone : (headTrimmed.memory.clearPartial headTrimmed.cache none .lru).1 = .ok 2 := by decide
  obtain ⟨removed, hused, -, hiff, -⟩ := answer_is_removed_iff run_headTrimmed hdone
  exact ⟨removed, hdone, hused, (hiff.2 (by decide)).symm⟩

/-- A second trim of the first sequence answers two again, and no cell leaves. -/
theorem answer_counts_vacant_positions :
    ∃ t : Tended, Run (.fresh { cacheStrategy := .lru } 16) t ∧
      (t.memory.clearPartial t.cache (some 1) .lru).1 = .ok 2 ∧
      (t.memory.clearPartial t.cache (some 1) .lru).2.2.ledger = t.cache.ledger :=
  ⟨headTrimmed, run_headTrimmed, by decide, by decide⟩

end Tended

end ChatInference
