import ChatInference.Cache.Staging
import ChatInference.Proofs.Cache.Cells

/-! What the steps of a staging cache do to its cells and to the lengths it remembers. -/

namespace ChatInference.StagingCache

theorem ledger_remove (c : StagingCache) (seq : Option SeqId) (p0 : Nat) (p1 : Option Nat) :
    (c.remove seq p0 p1).ledger = c.ledger.remove seq p0 p1 :=
  rfl

theorem ingested_remove (c : StagingCache) (seq : Option SeqId) (p0 : Nat) (p1 : Option Nat)
    (s : SeqId) :
    (c.remove seq p0 p1).ingested.get? s =
      if seq = none ∨ seq = some s then
        (c.ingested.get? s).bind (seenAfter c { c with ledger := c.ledger.remove seq p0 p1 } p1 s)
      else c.ingested.get? s := by
  let after : StagingCache := { c with ledger := c.ledger.remove seq p0 p1 }
  let affected (s : SeqId) : Bool := seq == none || seq == some s
  have haffected : affected s = true ↔ seq = none ∨ seq = some s := by
    simp only [affected, Bool.or_eq_true, beq_iff_eq]
  have hget : (c.remove seq p0 p1).ingested.get? s =
      ((c.ingested.get? s).filter fun n => !affected s || (seenAfter c after p1 s n).isSome).map
        fun n => if affected s then (seenAfter c after p1 s n).getD n else n := by
    rw [remove, Keyed.get?_map, Keyed.get?_filter]
  rw [hget]
  -- an affected sequence that `seenAfter` forgets is filtered out, any other is mapped by it
  by_cases ha : affected s = true
  · rw [if_pos (haffected.1 ha)]
    cases c.ingested.get? s with
    | none => rfl
    | some n =>
      rw [Option.bind_some]
      change _ = seenAfter c after p1 s n
      cases hn : seenAfter c after p1 s n <;> simp [Option.filter, ha, hn]
  · rw [if_neg (fun h => ha (haffected.2 h))]
    cases c.ingested.get? s <;> simp [ha]

theorem stage_of_startsOver {c : StagingCache} {seq : SeqId} {full : List Nat}
    (h : c.startsOver seq full.length = true) :
    c.stage seq full =
      (((c.ledger.replace seq full).tokens seq, ⟨seq, 0, none⟩),
        { c with
          ledger := c.ledger.replace seq full
          ingested := c.ingested.set seq full.length }) := by
  simp only [stage, h, if_true]

theorem stage_of_not_startsOver {c : StagingCache} {seq : SeqId} {full : List Nat}
    (h : c.startsOver seq full.length = false) :
    c.stage seq full =
      (((c.ledger.append seq (full.drop (c.seen seq))).tokens seq,
          ⟨seq, c.ledger.nextPos seq, c.ingested.get? seq⟩),
        { c with
          ledger := c.ledger.append seq (full.drop (c.seen seq))
          ingested := c.ingested.set seq full.length }) := by
  simp only [stage, h, Bool.false_eq_true, if_false]

/-- What a turn feeds: a rendering that starts over in whole, any other as far as it is new. -/
theorem stage_prompt (c : StagingCache) (seq : SeqId) (full : List Nat) :
    (c.stage seq full).1.1 =
      if c.startsOver seq full.length then full
      else c.ledger.tokens seq ++ full.drop (c.seen seq) := by
  cases h : c.startsOver seq full.length with
  | true =>
    rw [stage_of_startsOver h, if_pos rfl]
    dsimp only [Ledger.tokens]
    rw [Ledger.cells_replace, if_pos rfl, Ledger.tokens_cellsFrom]
  | false =>
    rw [stage_of_not_startsOver h, if_neg Bool.false_ne_true]
    dsimp only [Ledger.tokens]
    rw [Ledger.cells_append, if_pos rfl, List.map_append, Ledger.tokens_cellsFrom]

/-- A rendering that starts over takes the place of a sequence, whatever gaps that has. Any other leaves
its cells alone and comes after them. -/
theorem length_stage (c : StagingCache) (seq : SeqId) (full : List Nat) :
    (c.stage seq full).2.ledger.length seq =
      if c.startsOver seq full.length then full.length
      else c.ledger.length seq + (full.length - c.seen seq) := by
  cases h : c.startsOver seq full.length with
  | true =>
    rw [stage_of_startsOver h, if_pos rfl, Ledger.length]
    dsimp only
    rw [Ledger.cells_replace, if_pos rfl, Ledger.length_cellsFrom]
  | false =>
    rw [stage_of_not_startsOver h, if_neg Bool.false_ne_true, Ledger.length]
    dsimp only
    rw [Ledger.cells_append, if_pos rfl, List.length_append, Ledger.length_cellsFrom,
      List.length_drop, ← Ledger.length]

/-- What a turn is said to bring is what a sequence then grows by. It brings nothing to a sequence that
gets shorter, and only a rendering that starts over makes it so. -/
theorem unseen_eq_growth (c : StagingCache) (seq : SeqId) (full : List Nat) :
    let before := c.ledger.length seq
    let after := (c.stage seq full).2.ledger.length seq
    c.unseen seq full.length = after - before ∧
      (after < before → c.startsOver seq full.length = true ∧ after = full.length) := by
  dsimp only
  rw [length_stage, unseen]
  cases h : c.startsOver seq full.length with
  | true =>
    rw [if_pos rfl, if_pos rfl]
    exact ⟨rfl, fun _ => ⟨rfl, rfl⟩⟩
  | false =>
    rw [if_neg Bool.false_ne_true, if_neg Bool.false_ne_true]
    refine ⟨(Nat.add_sub_cancel_left ..).symm, fun hshorter => ?_⟩
    exact absurd hshorter (Nat.not_lt_of_le (Nat.le_add_right ..))

/-- A sequence whose cells are the whole of a rendering, from position zero on, and all of it
ingested. Positions are words. -/
structure HoldsAll (c : StagingCache) (seq : SeqId) (full : List Nat) : Prop where
  cells : c.ledger.cells seq = Ledger.cellsFrom 0 full
  ingested : c.ingested.get? seq = some full.length
  fits : full.length ≤ Position.limit

namespace HoldsAll

variable {c : StagingCache} {seq : SeqId} {full : List Nat}

theorem nextPos (h : c.HoldsAll seq full) : c.ledger.nextPos seq = full.length :=
  Ledger.nextPos_of_cellsFrom h.cells

theorem length (h : c.HoldsAll seq full) : c.ledger.length seq = full.length := by
  rw [Ledger.length, h.cells, Ledger.length_cellsFrom]

theorem posMax (h : c.HoldsAll seq full) (hf : full ≠ []) :
    c.ledger.posMax (some seq) = some (full.length - 1) := by
  rw [Ledger.posMax, h.cells, Ledger.max?_pos_cellsFrom 0 hf, Nat.zero_add]

end HoldsAll

/-- The first turn of a sequence puts all of its rendering into the cache. -/
theorem holdsAll_of_first_stage (c : StagingCache) (seq : SeqId) (full : List Nat)
    (hempty : c.ledger.length seq = 0) (hfits : full.length ≤ Position.limit) :
    (c.stage seq full).2.HoldsAll seq full := by
  have hs : c.startsOver seq full.length = true := by
    rw [startsOver, hempty]
    rfl
  rw [stage_of_startsOver hs]
  refine ⟨?_, ?_, hfits⟩
  · rw [Ledger.cells_replace, if_pos rfl]
  · rw [Keyed.get?_set, if_pos rfl]

end ChatInference.StagingCache
