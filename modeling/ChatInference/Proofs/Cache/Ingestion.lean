import ChatInference.Proofs.Cache.Renumbering
import ChatInference.Proofs.Cache.Trimming

/-!
The lengths that a staging cache remembers, beside the cells that it holds. A sequence has a length as long
as it holds cells, and the length is at least their number: a turn raises both by as much, or sets both anew;
a removal takes no more off the length than it takes cells, and forgets it with the last of them.
-/

namespace ChatInference

/-- Closing the gap of a context shift drops no cell. -/
theorem Ledger.length_shiftPlan {l : Ledger} {seq : SeqId} (h : Ascending (l.cells seq)) {p : ShiftPlan}
    (hpast : p.past = l.nextPos seq) (hhalf : l.nextPos seq ≤ 2 ^ 31) (hcut : p.cut ≤ p.past)
    (s : SeqId) :
    ((l.remove (some seq) p.keep (some p.cut)).shift seq p.cut (some p.past)
        (Memory.leftBy p.discard)).length s =
      (l.remove (some seq) p.keep (some p.cut)).length s := by
  unfold length
  rw [cells_shiftPlan h hpast hhalf hcut]
  by_cases hs : s = seq
  · rw [if_pos hs, hs, cells_remove, if_pos (.inr rfl), ShiftPlan.cut, h.filter_outside]
    simp only [closeUp, List.length_append, List.length_map]
  · rw [if_neg hs]
    exact congrArg List.length (sameBut_remove l seq _ _ s hs).symm

namespace StagingCache

/-- What may be staged: a rendering that is not empty, with its positions in the lower half of the words. -/
structure Stages (c : StagingCache) (seq : SeqId) (full : List Nat) : Prop where
  nonempty : full ≠ []
  half : ∀ x ∈ (c.stage seq full).2.ledger.cells seq, x.pos < 2 ^ 31

/-- A turn is staged and stands, or is rolled back at once; cells are removed; a window is shifted by a
memory; all is cleared. -/
inductive Step (c : StagingCache) : StagingCache → Prop where
  | stage {seq : SeqId} {full : List Nat} (h : c.Stages seq full) : Step c (c.stage seq full).2
  | fail {seq : SeqId} {full : List Nat} (h : c.Stages seq full) :
      Step c ((c.stage seq full).2.rollback (c.stage seq full).1.2)
  | remove (rm : Option SeqId) (p0 : Nat) (p1 : Option Nat) : Step c (c.remove rm p0 p1)
  | contextShift (m : Memory) (seq : SeqId) : Step c (m.contextShift c seq).2.2
  | clear : Step c c.clear

/-- Any steps, one after the other. -/
abbrev Run : StagingCache → StagingCache → Prop := Relation.ReflTransGen Step

/-- A sequence without cells has no length, and no length is less than the number of cells. -/
structure Matched (c : StagingCache) (seq : SeqId) : Prop where
  forgotten : c.ledger.length seq = 0 → c.ingested.get? seq = none
  length_le : c.ledger.length seq ≤ c.seen seq
  half : c.ledger.nextPos seq ≤ 2 ^ 31

/-- The lengths of all sequences match their cells, which are in order. -/
structure Remembers (c : StagingCache) : Prop where
  inOrder : c.ledger.InOrder
  matched : ∀ seq, c.Matched seq

variable {c c' : StagingCache} {seq : SeqId} {full : List Nat}

theorem matched_of_empty (hcells : c.ledger.cells seq = []) (hseen : c.ingested.get? seq = none) :
    c.Matched seq := by
  have hlen : c.ledger.length seq = 0 := congrArg List.length hcells
  refine ⟨fun _ => hseen, by omega, ?_⟩
  apply Ledger.nextPos_le_iff.2
  simp [hcells]

theorem Matched.congr (h : c.Matched seq) (hcells : c'.ledger.cells seq = c.ledger.cells seq)
    (hseen : c'.ingested.get? seq = c.ingested.get? seq) : c'.Matched seq := by
  have hlen : c'.ledger.length seq = c.ledger.length seq := congrArg List.length hcells
  refine ⟨fun hempty => ?_, ?_, ?_⟩
  · rw [hseen]
    exact h.forgotten (by omega)
  · rw [hlen, seen, hseen]
    exact h.length_le
  · rw [Ledger.nextPos_congr hcells]
    exact h.half

/-- A sequence has a length exactly when it holds cells. -/
theorem Matched.isSome_iff (h : c.Matched seq) :
    (c.ingested.get? seq).isSome = true ↔ c.ledger.cells seq ≠ [] := by
  have hle := h.length_le
  unfold seen at hle
  constructor
  · intro hsome hnil
    rw [h.forgotten (congrArg List.length hnil)] at hsome
    cases hsome
  · intro hcells
    have hpos : 0 < c.ledger.length seq := List.length_pos_iff.2 hcells
    cases hn : c.ingested.get? seq with
    | none =>
      rw [hn, Option.getD_none] at hle
      omega
    | some n => rfl

theorem remembers_empty (nCtx : Nat) : Remembers { nCtx } :=
  ⟨Ledger.inOrder_empty, fun _ => matched_of_empty rfl rfl⟩

theorem Stages.fits (h : c.Stages seq full) :
    (c.stage seq full).2.ledger.nextPos seq < Position.limit :=
  Nat.lt_of_le_of_lt (Ledger.nextPos_le_iff.2 h.half) (by decide)

/-- A rendering that is not empty leaves cells, and no more than it has tokens. -/
theorem Stages.length_bounds (hstage : c.Stages seq full) (h : c.ledger.length seq ≤ c.seen seq) :
    0 < (c.stage seq full).2.ledger.length seq ∧
      (c.stage seq full).2.ledger.length seq ≤ full.length := by
  have hfull : 0 < full.length := List.length_pos_iff.2 hstage.nonempty
  rw [length_stage]
  split
  case isTrue => exact ⟨hfull, Nat.le_refl _⟩
  case isFalse hover =>
    -- there are cells already, and what is appended to them was not ingested before
    rw [startsOver_iff, not_or] at hover
    have hheld : 0 < c.ledger.length seq := List.length_pos_iff.2 hover.1
    omega

theorem remembers_stage (h : c.Remembers) (hstage : c.Stages seq full) :
    (c.stage seq full).2.Remembers := by
  refine ⟨inOrder_stage h.inOrder hstage.fits, fun s => ?_⟩
  have hseen := ingested_stage c seq full s
  by_cases hs : s = seq
  · subst hs
    rw [if_pos rfl] at hseen
    obtain ⟨hpos, hle⟩ := hstage.length_bounds (h.matched s).length_le
    refine ⟨fun hempty => ?_, ?_, Ledger.nextPos_le_iff.2 hstage.half⟩
    · omega
    · rwa [seen, hseen, Option.getD_some]
  · rw [if_neg hs] at hseen
    exact (h.matched s).congr (cells_stage_of_ne c full hs) hseen

/-- A turn that is taken back leaves its sequence as it was, or forgets it with all its cells. -/
theorem remembers_fail (h : c.Remembers) (hstage : c.Stages seq full) :
    ((c.stage seq full).2.rollback (c.stage seq full).1.2).Remembers := by
  have hstaged := (remembers_stage h hstage).inOrder
  refine ⟨(Ledger.thinned_remove hstaged _ _ _).inOrder, fun s => ?_⟩
  cases hover : c.startsOver seq full.length with
  | true =>
    have hfailed := failTurn_of_startsOver hover hstage.fits s
    by_cases hs : s = seq
    · rw [if_pos hs, if_pos hs] at hfailed
      exact matched_of_empty hfailed.1 hfailed.2
    · rw [if_neg hs, if_neg hs] at hfailed
      exact (h.matched s).congr hfailed.1 hfailed.2
  | false =>
    refine (h.matched s).congr (cells_failTurn hover hstage.fits [] s) ?_
    have hseen := ingested_failTurn hover [] s
    by_cases hs : s = seq
    · subst hs
      rw [if_pos rfl] at hseen
      exact hseen
    · rw [if_neg hs] at hseen
      exact hseen

theorem length_remove_le (c : StagingCache) (rm : Option SeqId) (p0 : Nat) (p1 : Option Nat)
    (seq : SeqId) : (c.remove rm p0 p1).ledger.length seq ≤ c.ledger.length seq := by
  rw [ledger_remove, Ledger.length, Ledger.cells_remove]
  split
  · exact List.length_filter_le _ _
  · exact Nat.le_refl _

theorem remembers_remove (h : c.Remembers) (rm : Option SeqId) (p0 : Nat) (p1 : Option Nat) :
    (c.remove rm p0 p1).Remembers := by
  have hthin := Ledger.thinned_remove h.inOrder rm p0 p1
  refine ⟨hthin.inOrder, fun s => ?_⟩
  have hcells := Ledger.cells_remove c.ledger rm p0 p1 s
  have hseen := ingested_remove c rm p0 p1 s
  by_cases hrm : rm = none ∨ rm = some s
  · rw [if_pos hrm] at hseen
    have hle := (h.matched s).length_le
    have hfewer := length_remove_le c rm p0 p1 s
    refine ⟨fun hempty => ?_, ?_, Nat.le_trans (hthin.nextPos_le s) (h.matched s).half⟩
    · -- the length goes with the last cell
      rw [hseen, Option.bind_eq_none_iff]
      intro n _
      rw [seenAfter]
      exact if_pos (beq_iff_eq.2 hempty)
    · rw [ledger_remove] at hfewer ⊢
      rw [seen_remove, if_pos hrm]
      split
      · omega
      · split <;> omega
  · rw [if_neg hrm] at hcells hseen
    exact (h.matched s).congr hcells hseen

/-- The removal of a context shift does all there is to remember; no cell is lost in closing the gap. -/
theorem remembers_contextShift (h : c.Remembers) (m : Memory) (seq : SeqId) :
    (m.contextShift c seq).2.2.Remembers := by
  rcases m.contextShift_cache c seq with hkept | ⟨p, hplan, hshift⟩
  · rw [hkept]
    exact h
  · have hremoved := remembers_remove h (some seq) p.keep (some p.cut)
    have hshift : (m.contextShift c seq).2.2 =
        (c.remove (some seq) p.keep (some p.cut)).shift seq p.cut (some p.past)
          (Memory.leftBy p.discard) := hshift
    rw [Memory.nPast_eq] at hplan
    obtain ⟨hpast, -, hcut⟩ := ShiftPlan.plan?_bounds hplan
    have hthin := Ledger.thinned_shiftPlan h.inOrder hplan
    rw [hshift]
    refine ⟨hthin.inOrder, fun s => ?_⟩
    have hlen := Ledger.length_shiftPlan (h.inOrder.ascending seq) hpast (h.matched seq).half hcut s
    refine ⟨fun hempty => ?_, ?_, ?_⟩
    · exact (hremoved.matched s).forgotten (hlen.symm.trans hempty)
    · exact Nat.le_trans (Nat.le_of_eq hlen) (hremoved.matched s).length_le
    · exact Nat.le_trans (hthin.nextPos_le s) (hremoved.matched s).half

theorem remembers_step (h : c.Remembers) (hstep : c.Step c') : c'.Remembers := by
  cases hstep with
  | stage hstage => exact remembers_stage h hstage
  | fail hstage => exact remembers_fail h hstage
  | remove rm p0 p1 => exact remembers_remove h rm p0 p1
  | contextShift m seq => exact remembers_contextShift h m seq
  | clear => exact ⟨Ledger.inOrder_empty, fun _ => matched_of_empty rfl rfl⟩

theorem remembers_run (h : c.Remembers) (hrun : c.Run c') : c'.Remembers := by
  induction hrun with
  | refl => exact h
  | tail _ hstep ih => exact remembers_step ih hstep

/-- After any run of turns that stand or are rolled back at once, of removals, context shifts and clears,
a sequence has an ingested length exactly when it holds cells, and it is at least their number. So no removal
takes more cells of a sequence than the length is long, and one that takes its tail lowers the length by exactly
as many. A sequence without cells is ingested from its beginning: all of a rendering is new to it, is fed, and
is held from position zero on. -/
theorem ingested_length_iff_cells {nCtx : Nat} (hrun : Run { nCtx } c) :
    (∀ seq, (c.ingested.get? seq).isSome = true ↔ c.ledger.cells seq ≠ []) ∧
      (∀ seq n, c.ingested.get? seq = some n → c.ledger.length seq ≤ n) ∧
      (∀ rm p0 p1 seq n, rm = none ∨ rm = some seq → c.ingested.get? seq = some n →
        let after := c.remove rm p0 p1
        ∃ removed, after.ledger.length seq + removed = c.ledger.length seq ∧ removed ≤ n ∧
          (after.ledger.cells seq ≠ [] → c.reachesTail seq p1 = true →
            ∃ left, after.ingested.get? seq = some left ∧ left + removed = n)) ∧
      ∀ seq full, c.ledger.cells seq = [] →
        c.unseen seq full.length = full.length ∧ (c.stage seq full).1 = (full, ⟨seq, 0, none⟩) ∧
          (c.stage seq full).2.ledger.cells seq = Ledger.cellsFrom 0 full := by
  have h : c.Remembers := remembers_run (remembers_empty nCtx) hrun
  have hle (seq : SeqId) (n : Nat) (hn : c.ingested.get? seq = some n) :
      c.ledger.length seq ≤ n := by
    have hle := (h.matched seq).length_le
    rwa [seen, hn, Option.getD_some] at hle
  refine ⟨fun seq => (h.matched seq).isSome_iff, hle, ?removal, ?restart⟩
  case removal =>
    intro rm p0 p1 seq n hrm hn after
    have hbefore := hle seq n hn
    have hfewer : after.ledger.length seq ≤ c.ledger.length seq := length_remove_le c rm p0 p1 seq
    refine ⟨c.ledger.length seq - after.ledger.length seq, by omega, by omega, fun hcells htail => ?_⟩
    have hleft : ¬(after.ledger.length seq == 0) = true := by
      simpa [Ledger.length] using hcells
    refine ⟨n - (c.ledger.length seq - after.ledger.length seq), ?_, by omega⟩
    rw [ingested_remove, if_pos hrm, hn, Option.bind_some, seenAfter]
    exact (if_neg hleft).trans (if_pos htail)
  case restart =>
    intro seq full hempty
    have hover : c.startsOver seq full.length = true := startsOver_iff.2 (.inl hempty)
    have hlen : c.ledger.length seq = 0 := congrArg List.length hempty
    refine ⟨?_, ?_, ?_⟩
    · rw [unseen, if_pos hover, hlen, Nat.sub_zero]
    · rw [stage_of_startsOver hover, Ledger.tokens, Ledger.cells_replace, if_pos rfl,
        Ledger.tokens_cellsFrom]
    · rw [stage_of_startsOver hover, Ledger.cells_replace, if_pos rfl]

/-- Six tokens, of which a removal leaves five, a turn that fails as many, and a context shift four. -/
theorem ingested_length_iff_cells_shifted :
    ∃ c : StagingCache, Run { nCtx := 16 } c ∧ c.ingested.get? 1 = some 6 ∧
      c.ledger.cells 1 = [⟨0, 1⟩, ⟨1, 4⟩, ⟨2, 5⟩, ⟨3, 6⟩] ∧ c.ledger.length 1 ≤ 6 ∧
      (c.remove (some 1) 2 none).ledger.cells 1 = [⟨0, 1⟩, ⟨1, 4⟩] ∧
      ∃ left, (c.remove (some 1) 2 none).ingested.get? 1 = some left ∧ left + 2 = 6 := by
  let c₀ : StagingCache := { nCtx := 16 }
  let c₁ := (c₀.stage 1 [1, 2, 3, 4, 5, 6]).2
  let c₂ := c₁.remove none 2 (some 3)
  let c₃ := (c₂.stage 1 [1, 2, 3, 4, 5, 6, 7]).2.rollback (c₂.stage 1 [1, 2, 3, 4, 5, 6, 7]).1.2
  let c₄ := ((keepingOne 2).contextShift c₃ 1).2.2
  have h₁ : Step c₀ c₁ := .stage ⟨by decide, by decide⟩
  have h₂ : Step c₁ c₂ := .remove none 2 (some 3)
  have h₃ : Step c₂ c₃ := .fail ⟨by decide, by decide⟩
  have h₄ : Step c₃ c₄ := .contextShift (keepingOne 2) 1
  have hrun : Run c₀ c₄ := (((Relation.ReflTransGen.single h₁).tail h₂).tail h₃).tail h₄
  have hseen : c₄.ingested.get? 1 = some 6 := by decide
  have hplan : ShiftPlan.plan? (keepingOne 2).policy.keepTokens (KvCache.nPast c₃ 1)
      (keepingOne 2).policy.discardTokens = some ⟨1, 2, 6⟩ := by decide
  have hledger : c₄.ledger = (c₃.ledger.remove (some 1) 1 (some 3)).shift 1 3 (some 6)
      (Memory.leftBy 2) := by
    dsimp only [c₄]
    rw [Memory.contextShift_of_plan rfl hplan rfl]
    rfl
  have hcells : c₄.ledger.cells 1 = [⟨0, 1⟩, ⟨1, 4⟩, ⟨2, 5⟩, ⟨3, 6⟩] := by
    rw [hledger]
    exact (Ledger.cells_shiftPlan (p := ⟨1, 2, 6⟩) (by decide) (by decide) (by decide) (by decide) 1).trans
      (by decide)
  have hafter : (c₄.remove (some 1) 2 none).ledger.cells 1 = [⟨0, 1⟩, ⟨1, 4⟩] := by
    rw [ledger_remove, Ledger.cells_remove, hcells]
    decide
  obtain ⟨-, hle, hremoval, -⟩ := ingested_length_iff_cells hrun
  obtain ⟨removed, hsum, -, htail⟩ := hremoval (some 1) 2 none 1 6 (.inr rfl) hseen
  rw [Ledger.length, Ledger.length, hafter, hcells] at hsum
  obtain rfl : removed = 2 := Nat.add_left_cancel hsum
  refine ⟨c₄, hrun, hseen, hcells, hle 1 6 hseen, hafter, htail ?_ rfl⟩
  rw [hafter]
  exact List.cons_ne_nil _ _

end StagingCache

end ChatInference
