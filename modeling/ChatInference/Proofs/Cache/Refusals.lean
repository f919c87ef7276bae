import ChatInference.Proofs.Cache.Hits

/-!
What is left where a removal is refused. An operation that ends in an error, be it switched off or
refused by the cache, has neither deleted nor renumbered a cell, and has counted nothing. Relief of
memory pressure never ends in an error: it deletes the range that was planned from every sequence, or,
where that is switched off or refused, everything.
-/

namespace ChatInference

open LedgerBacked (ledgerOf)

/-- A ledger that decides on each removal whether it refuses it. -/
structure GuardedCache where
  nCtx : Nat
  accepts : Option SeqId → Nat → Option Nat → Bool
  ledger : Ledger := {}

instance : KvCache GuardedCache where
  nCtx c := c.nCtx
  posMax c seq := c.ledger.posMax seq
  remove c seq p0 p1 :=
    if c.accepts seq p0 p1 then (true, { c with ledger := c.ledger.remove seq p0 p1 })
    else (false, c)
  shift c seq p0 p1 delta := { c with ledger := c.ledger.shift seq p0 p1 delta }
  clear c := { c with ledger := c.ledger.clear }

instance : LedgerBacked GuardedCache where
  ledgerOf := GuardedCache.ledger
  posMax_eq _ _ := rfl
  remove_eq c seq p0 p1 := by
    by_cases h : c.accepts seq p0 p1 = true
    · simp only [KvCache.remove, h, if_true]
    · simp only [KvCache.remove, h, Bool.false_eq_true, if_false]
  shift_eq _ _ _ _ _ := rfl
  clear_eq _ := rfl

namespace Memory

variable {σ : Type} [KvCache σ]

/-- The cache refuses to delete a range, of one sequence or of all. -/
def Refused (kv : σ) (target : Option SeqId) (range : Nat × Nat) : Prop :=
  (KvCache.remove kv target range.1 (some range.2)).1 = false

/-- A context shift that the cache does not allow: it refuses the removal that is planned. -/
def ShiftRefused (m : Memory) (kv : σ) (seq : SeqId) : Prop :=
  ∃ plan, ShiftPlan.plan? m.policy.keepTokens (KvCache.nPast kv seq) m.policy.discardTokens =
    some plan ∧ Refused kv (some seq) (plan.keep, plan.cut)

/-- A partial deletion that the cache does not allow. -/
def DeletionRefused (m : Memory) (kv : σ) (target : Option SeqId) (strategy : DeletionStrategy) :
    Prop :=
  ∃ range, strategy.range? m.policy.keepTokens (KvCache.nextOf kv target) = some range ∧
    Refused kv target range

/-- Relief is by deletion: that is switched on, and the cache does not refuse it. -/
def RelievesByDeletion (m : Memory) (kv : σ) : Prop :=
  m.policy.partialDeletion = true ∧ ¬m.DeletionRefused kv none m.policy.deletionStrategy

variable [LedgerBacked σ]

/-- Neither a counter nor a cell is other than it was. -/
structure Untouched (m : Memory) (kv : σ) (m' : Memory) (kv' : σ) : Prop where
  memory : m' = m
  ledger : ledgerOf kv' = ledgerOf kv

/-- The range that was planned for all sequences is gone from each of them; it may be empty. -/
structure RangeTaken (m : Memory) (kv : σ) (m' : Memory) (kv' : σ) : Prop where
  cells : ∀ seq, (ledgerOf kv').cells seq = ((ledgerOf kv).cells seq).filter fun c =>
    !m.policy.deletionStrategy.takes m.policy.keepTokens (KvCache.nextOf kv none) c
  fullClears : m'.counters.fullClears = m.counters.fullClears

/-- The whole cache is empty, which counts as a full clear. -/
structure Emptied (m m' : Memory) (kv' : σ) : Prop where
  ledger : ledgerOf kv' = {}
  fullClears : m'.counters.fullClears = m.counters.fullClears + 1

variable {m : Memory} {kv : σ}

theorem ledgerOf_remove_of_refused {target : Option SeqId} {range : Nat × Nat}
    (h : Refused kv target range) :
    ledgerOf (KvCache.remove kv target range.1 (some range.2)).2 = ledgerOf kv := by
  rw [LedgerBacked.remove_eq, if_neg]
  rw [h]
  decide

theorem contextShift_of_error {seq : SeqId} {e : Error} (h : (m.contextShift kv seq).1 = .error e) :
    (m.policy.contextShifting = false ∨ m.ShiftRefused kv seq) ∧
      Untouched m kv (m.contextShift kv seq).2.1 (m.contextShift kv seq).2.2 := by
  unfold contextShift at h ⊢
  split
  case isFalse hoff => exact ⟨.inl (Bool.eq_false_iff.2 hoff), rfl, rfl⟩
  case isTrue hon =>
    rw [if_pos hon] at h
    split
    case h_1 hplan =>
      rw [hplan] at h
      cases h
    case h_2 plan hplan =>
      rw [hplan] at h
      dsimp only at h
      split
      case h_1 kv' hr =>
        have hrefused : Refused kv (some seq) (plan.keep, plan.cut) := congrArg Prod.fst hr
        have hledger := ledgerOf_remove_of_refused hrefused
        rw [hr] at hledger
        exact ⟨.inr ⟨plan, hplan, hrefused⟩, rfl, hledger⟩
      case h_2 kv' hr =>
        rw [hr] at h
        cases h

/-- All that a partial deletion can do. -/
theorem clearPartial_cases (m : Memory) (kv : σ) (target : Option SeqId)
    (strategy : DeletionStrategy) :
    (m.policy.partialDeletion = false ∧ ∃ e, m.clearPartial kv target strategy = (.error e, m, kv)) ∨
      (m.policy.partialDeletion = true ∧
        strategy.range? m.policy.keepTokens (KvCache.nextOf kv target) = none ∧
        m.clearPartial kv target strategy = (.ok 0, m, kv)) ∨
      ∃ range, m.policy.partialDeletion = true ∧
        strategy.range? m.policy.keepTokens (KvCache.nextOf kv target) = some range ∧
        ((Refused kv target range ∧ ∃ e kv', ledgerOf kv' = ledgerOf kv ∧
            m.clearPartial kv target strategy = (.error e, m, kv')) ∨
          (¬Refused kv target range ∧ ∃ kv',
            ledgerOf kv' = (ledgerOf kv).remove target range.1 (some range.2) ∧
            m.clearPartial kv target strategy = (.ok (range.2 - range.1),
              m.count fun c => { c with partialClears := c.partialClears + 1 }, kv'))) := by
  unfold clearPartial
  split
  case isFalse hoff => exact .inl ⟨Bool.eq_false_iff.2 hoff, _, rfl⟩
  case isTrue hon =>
    right
    split
    case h_1 hrange => exact .inl ⟨hon, hrange, rfl⟩
    case h_2 range hrange =>
      refine .inr ⟨range, hon, hrange, ?_⟩
      split
      case h_1 kv' hr =>
        have hrefused : Refused kv target range := congrArg Prod.fst hr
        have hledger := ledgerOf_remove_of_refused hrefused
        rw [hr] at hledger
        exact .inl ⟨hrefused, _, kv', hledger, rfl⟩
      case h_2 kv' hr =>
        have hdone : (KvCache.remove kv target range.1 (some range.2)).1 = true :=
          congrArg Prod.fst hr
        have hledger := LedgerBacked.remove_eq kv target range.1 (some range.2)
        rw [if_pos hdone, hr] at hledger
        refine .inr ⟨?_, kv', hledger, rfl⟩
        unfold Refused
        rw [hdone]
        decide

theorem clearPartial_of_error {target : Option SeqId} {strategy : DeletionStrategy} {e : Error}
    (h : (m.clearPartial kv target strategy).1 = .error e) :
    (m.policy.partialDeletion = false ∨ m.DeletionRefused kv target strategy) ∧
      Untouched m kv (m.clearPartial kv target strategy).2.1
        (m.clearPartial kv target strategy).2.2 := by
  rcases m.clearPartial_cases kv target strategy with ⟨hoff, e', heq⟩ | ⟨-, -, heq⟩ |
    ⟨range, -, hrange, ⟨hrefused, e', kv', hledger, heq⟩ | ⟨-, kv', -, heq⟩⟩
  · rw [heq]
    exact ⟨.inl hoff, rfl, rfl⟩
  · rw [heq] at h
    cases h
  · rw [heq]
    exact ⟨.inr ⟨range, hrange, hrefused⟩, rfl, hledger⟩
  · rw [heq] at h
    cases h

/-- What is left by a deletion of the range of a strategy, by what the strategy takes. -/
theorem cells_remove_range {strategy : DeletionStrategy} {keep past : Nat} {range : Nat × Nat}
    (hrange : strategy.range? keep past = some range) (l : Ledger) (seq : SeqId) :
    (l.remove none range.1 (some range.2)).cells seq =
      (l.cells seq).filter fun c => !strategy.takes keep past c := by
  unfold DeletionStrategy.takes
  rw [Ledger.cells_remove, if_pos (.inl rfl), hrange]
  rfl

/-- A strategy without a range takes no cell. -/
theorem filter_takes_of_no_range {strategy : DeletionStrategy} {keep past : Nat}
    (hrange : strategy.range? keep past = none) (cells : List Cell) :
    (cells.filter fun c => !strategy.takes keep past c) = cells := by
  unfold DeletionStrategy.takes
  rw [hrange]
  exact List.filter_eq_self.2 fun _ _ => rfl

/-- The event counts before anything is tried. -/
def pressed (m : Memory) : Memory :=
  m.count fun c => { c with pressureEvents := c.pressureEvents + 1 }

omit [LedgerBacked σ] in
theorem relieve_of_ok {n usage : Nat} {m' : Memory} {kv' : σ}
    (h : m.pressed.clearPartial kv none m.policy.deletionStrategy = (.ok n, m', kv')) :
    m.relieve kv usage = (m'.refresh usage, kv') := by
  have hsame : m.pressed.clearPartial kv none m.pressed.policy.deletionStrategy =
      (.ok n, m', kv') := h
  unfold relieve
  unfold pressed at hsame
  dsimp only
  rw [hsame]

omit [LedgerBacked σ] in
theorem relieve_of_error {e : Error} {usage : Nat} {m' : Memory} {kv' : σ}
    (h : m.pressed.clearPartial kv none m.policy.deletionStrategy = (.error e, m', kv')) :
    m.relieve kv usage = ((m'.clear kv' none).1.refresh usage, KvCache.clear kv') := by
  have hsame : m.pressed.clearPartial kv none m.pressed.policy.deletionStrategy =
      (.error e, m', kv') := h
  unfold relieve
  unfold pressed at hsame
  dsimp only
  rw [hsame]
  rfl

/-- Relief counts one event, and leaves what its deletion leaves or nothing at all. -/
theorem relieve_cases (m : Memory) (kv : σ) (usage : Nat) :
    (m.relieve kv usage).1.counters.pressureEvents = m.counters.pressureEvents + 1 ∧
      ((m.RelievesByDeletion kv ∧ RangeTaken m kv (m.relieve kv usage).1 (m.relieve kv usage).2) ∨
        (¬m.RelievesByDeletion kv ∧ Emptied m (m.relieve kv usage).1 (m.relieve kv usage).2)) := by
  rcases m.pressed.clearPartial_cases kv none m.policy.deletionStrategy with ⟨hoff, e, heq⟩ |
    ⟨hon, hrange, heq⟩ | ⟨range, hon, hrange, ⟨hrefused, e, kv', -, heq⟩ | ⟨hdone, kv', hledger, heq⟩⟩
  · -- switched off
    rw [relieve_of_error heq]
    refine ⟨rfl, .inr ⟨fun h => ?_, LedgerBacked.clear_eq kv, rfl⟩⟩
    exact Bool.false_ne_true (hoff.symm.trans h.1)
  · -- no range
    rw [relieve_of_ok heq]
    refine ⟨rfl, .inl ⟨⟨hon, ?_⟩, fun seq => (filter_takes_of_no_range hrange _).symm, rfl⟩⟩
    rintro ⟨range, hsome, -⟩
    exact Option.some_ne_none range (hsome.symm.trans hrange)
  · -- refused
    rw [relieve_of_error heq]
    refine ⟨rfl, .inr ⟨fun h => ?_, LedgerBacked.clear_eq kv', rfl⟩⟩
    exact h.2 ⟨range, hrange, hrefused⟩
  · rw [relieve_of_ok heq]
    refine ⟨rfl, .inl ⟨⟨hon, ?_⟩, fun seq => ?_, rfl⟩⟩
    · rintro ⟨range', hsome, hrefused⟩
      cases hrange.symm.trans hsome
      exact hdone hrefused
    · dsimp only
      rw [hledger]
      exact cells_remove_range hrange (ledgerOf kv) seq

/-- A context shift or a partial deletion that ends in an error was switched off or is refused, and
leaves every counter and every cell as it was. Relief under memory pressure counts one event; it takes
the planned range from every sequence, unless that is switched off or refused, and then it empties the
cache and counts that. -/
theorem refused_removal_leaves_cache_alone (m : Memory) (kv : σ) :
    (∀ seq e, (m.contextShift kv seq).1 = .error e →
        (m.policy.contextShifting = false ∨ m.ShiftRefused kv seq) ∧
          Untouched m kv (m.contextShift kv seq).2.1 (m.contextShift kv seq).2.2) ∧
      (∀ target strategy e, (m.clearPartial kv target strategy).1 = .error e →
        (m.policy.partialDeletion = false ∨ m.DeletionRefused kv target strategy) ∧
          Untouched m kv (m.clearPartial kv target strategy).2.1
            (m.clearPartial kv target strategy).2.2) ∧
      ∀ usage,
        (m.relieve kv usage).1.counters.pressureEvents = m.counters.pressureEvents + 1 ∧
          ((m.RelievesByDeletion kv ∧ RangeTaken m kv (m.relieve kv usage).1 (m.relieve kv usage).2) ∨
            (¬m.RelievesByDeletion kv ∧
              Emptied m (m.relieve kv usage).1 (m.relieve kv usage).2)) :=
  ⟨fun _ _ => contextShift_of_error, fun _ _ _ => clearPartial_of_error, m.relieve_cases kv⟩

end Memory

/-- Two sequences of six and three tokens, in a cache that refuses to delete from a single one. -/
def GuardedCache.ofTwo : GuardedCache :=
  { nCtx := 16, accepts := fun target _ _ => target.isNone
    ledger := (({} : Ledger).append 1 (List.range 6)).append 2 (List.range 3) }

namespace Memory

/-- A shift and a trim of the first sequence are refused; relief takes the third and the fourth position
from both. -/
theorem refused_removal_leaves_two_alone :
    let m : Memory := { policy := { keepTokens := 1, cacheStrategy := .smart } }
    let kv := GuardedCache.ofTwo
    m.ShiftRefused kv 1 ∧ (m.contextShift kv 1).2.2.ledger = kv.ledger ∧
      m.DeletionRefused kv (some 1) .smart ∧ (m.clearPartial kv (some 1) .smart).2.1 = m ∧
      (m.relieve kv 0).2.ledger.tokens 1 = [0, 1, 4, 5] ∧
      (m.relieve kv 0).2.ledger.tokens 2 = [0, 1] := by
  intro m kv
  obtain ⟨hshift, hpartial, hrelief⟩ := refused_removal_leaves_cache_alone m kv
  have hfails : (m.contextShift kv 1).1 =
      .error (.runtime (refused "removal" (1, 3) ++ s!" for session {1}")) := by decide
  have hfails' : (m.clearPartial kv (some 1) .smart).1 =
      .error (.runtime (refused "partial removal" (2, 4))) := by decide
  obtain ⟨hwhy, huntouched⟩ := hshift 1 _ hfails
  obtain ⟨hwhy', huntouched'⟩ := hpartial (some 1) .smart _ hfails'
  refine ⟨hwhy.resolve_left (by decide), huntouched.ledger, hwhy'.resolve_left (by decide),
    huntouched'.memory, ?_⟩
  obtain ⟨-, ⟨-, hthinned⟩ | ⟨hnot, -⟩⟩ := hrelief 0
  · have htokens (seq : SeqId) : (m.relieve kv 0).2.ledger.tokens seq = _ :=
      congrArg (List.map Cell.token) (hthinned.cells seq)
    rw [htokens, htokens]
    decide
  · refine absurd ⟨rfl, ?_⟩ hnot
    rintro ⟨range, -, hrefused⟩
    cases hrefused

end Memory

end ChatInference
