import ChatInference.Proofs.Cache.Upkeep

/-!
What precedes a turn, in two parts. The cache is tidied first: relieved where memory is short, and
trimmed. Whether the window is shifted as well is decided by its length after that. What removals of all
kinds and shifts leave true of a cache, the whole of it does.
-/

namespace ChatInference.Memory

variable {σ : Type} [KvCache σ]

/-- Relief and trim, as they precede a turn. -/
def tidied (m : Memory) (kv : σ) (seq : SeqId) (usage : Nat) : Memory × σ :=
  let m := m.refresh usage
  let (m, kv) := if m.underPressure then m.relieve kv usage else (m, kv)
  if m.policy.tokenCacheReuse then (m.trim kv seq).2 else (m, kv)

/-- Relief, where memory is short. -/
def relieved (m : Memory) (kv : σ) (usage : Nat) : Memory × σ :=
  if (m.refresh usage).underPressure then (m.refresh usage).relieve kv usage
  else (m.refresh usage, kv)

theorem tidied_eq (m : Memory) (kv : σ) (seq : SeqId) (usage : Nat) :
    m.tidied kv seq usage =
      if (m.relieved kv usage).1.policy.tokenCacheReuse then
        ((m.relieved kv usage).1.trim (m.relieved kv usage).2 seq).2
      else m.relieved kv usage := rfl

/-- Whether a context shift is attempted before a turn. -/
def shiftsFor (m : Memory) (kv : σ) (seq : SeqId) (incoming : Nat) (predict : Int) (usage : Nat) :
    Bool :=
  let t := m.tidied kv seq usage
  t.1.policy.contextShifting && KvCache.nCtx t.2 < projected (KvCache.nPast t.2 seq) incoming predict

theorem prepareTurn_eq (m : Memory) (kv : σ) (seq : SeqId) (incoming : Nat) (predict : Int)
    (usage : Nat) :
    m.prepareTurn kv seq incoming predict usage =
      if m.shiftsFor kv seq incoming predict usage then
        ((m.tidied kv seq usage).1.contextShift (m.tidied kv seq usage).2 seq).2
      else m.tidied kv seq usage := rfl

/-- A projected length that a word can hold is the length itself. -/
theorem projected_le_iff {past incoming n : Nat} {predict : Int} (hn : n < UInt32.size - 1) :
    projected past incoming predict ≤ n ↔ past + incoming + predict.toNat ≤ n := by
  unfold projected
  omega

theorem policy_clearPartial (m : Memory) (kv : σ) (seq : Option SeqId)
    (strategy : DeletionStrategy) : (m.clearPartial kv seq strategy).2.1.policy = m.policy := by
  unfold clearPartial
  split
  · split
    · rfl
    · split <;> rfl
  · rfl

theorem policy_relieve (m : Memory) (kv : σ) (usage : Nat) :
    (m.relieve kv usage).1.policy = m.policy := by
  unfold relieve
  dsimp only
  have hpartial := policy_clearPartial
    (m.count fun c => { c with pressureEvents := c.pressureEvents + 1 }) kv none
    m.policy.deletionStrategy
  split
  case h_1 n m' kv' hr =>
    change Memory.clearPartial _ kv none m.policy.deletionStrategy = _ at hr
    rw [hr] at hpartial
    exact hpartial
  case h_2 e m' kv' hr =>
    change Memory.clearPartial _ kv none m.policy.deletionStrategy = _ at hr
    rw [hr] at hpartial
    exact hpartial

theorem policy_trim (m : Memory) (kv : σ) (seq : SeqId) : (m.trim kv seq).2.1.policy = m.policy := by
  unfold trim
  split
  · rfl
  · exact policy_clearPartial m kv (some seq) m.policy.deletionStrategy

theorem policy_relieved (m : Memory) (kv : σ) (usage : Nat) :
    (m.relieved kv usage).1.policy = m.policy := by
  unfold relieved
  split
  · exact policy_relieve (m.refresh usage) kv usage
  · rfl

theorem policy_tidied (m : Memory) (kv : σ) (seq : SeqId) (usage : Nat) :
    (m.tidied kv seq usage).1.policy = m.policy := by
  have hrelieved := m.policy_relieved kv usage
  rw [tidied_eq]
  split
  · exact (policy_trim _ _ seq).trans hrelieved
  · exact hrelieved

section Preserved

variable {P : σ → Prop} {kv : σ} {seq : SeqId} {usage : Nat}

theorem clearPartial_preserves {seq : Option SeqId}
    (hremove : ∀ kv p0 p1, P kv → P (KvCache.remove kv seq p0 (some p1)).2) (m : Memory)
    (strategy : DeletionStrategy) (h : P kv) : P (m.clearPartial kv seq strategy).2.2 := by
  rcases m.clearPartial_cache kv seq strategy with hkv | ⟨range, -, hkv⟩
  · rw [hkv]
    exact h
  · rw [hkv]
    exact hremove kv range.1 range.2 h

theorem relieve_preserves (hremove : ∀ kv p0 p1, P kv → P (KvCache.remove kv none p0 (some p1)).2)
    (hclear : ∀ kv, P kv → P (KvCache.clear kv)) (m : Memory) (h : P kv) :
    P (m.relieve kv usage).2 := by
  unfold relieve
  dsimp only
  have hpartial := clearPartial_preserves hremove
    (m.count fun c => { c with pressureEvents := c.pressureEvents + 1 })
    m.policy.deletionStrategy h
  split
  case h_1 n m' kv' hr =>
    change Memory.clearPartial _ kv none m.policy.deletionStrategy = _ at hr
    rw [hr] at hpartial
    exact hpartial
  case h_2 e m' kv' hr =>
    change Memory.clearPartial _ kv none m.policy.deletionStrategy = _ at hr
    rw [hr] at hpartial
    exact hclear kv' hpartial

/-- Of all sequences, tidying touches the one that the turn is of, unless memory is short. -/
theorem tidied_preserves (m : Memory)
    (hown : ∀ kv p0 p1, P kv → P (KvCache.remove kv (some seq) p0 (some p1)).2)
    (hall : (m.refresh usage).underPressure = true →
      (∀ kv p0 p1, P kv → P (KvCache.remove kv none p0 (some p1)).2) ∧
        ∀ kv, P kv → P (KvCache.clear kv))
    (h : P kv) : P (m.tidied kv seq usage).2 := by
  have hrelieved : P (m.relieved kv usage).2 := by
    unfold relieved
    split
    case isTrue hshort =>
      obtain ⟨hremove, hclear⟩ := hall hshort
      exact relieve_preserves hremove hclear _ h
    case isFalse => exact h
  rw [tidied_eq]
  split
  case isFalse => exact hrelieved
  case isTrue =>
    -- a window that is short enough is not trimmed
    unfold trim
    split
    · exact hrelieved
    · exact clearPartial_preserves hown _ _ hrelieved

theorem prepareTurn_preserves (m : Memory) (incoming : Nat) (predict : Int)
    (hown : ∀ kv p0 p1, P kv → P (KvCache.remove kv (some seq) p0 (some p1)).2)
    (hshift : ∀ kv p0 p1 delta, P kv → P (KvCache.shift kv seq p0 (some p1) delta))
    (hall : (m.refresh usage).underPressure = true →
      (∀ kv p0 p1, P kv → P (KvCache.remove kv none p0 (some p1)).2) ∧
        ∀ kv, P kv → P (KvCache.clear kv))
    (h : P kv) : P (m.prepareTurn kv seq incoming predict usage).2 := by
  have htidied : P (m.tidied kv seq usage).2 := tidied_preserves m hown hall h
  rw [prepareTurn_eq]
  split
  case isFalse => exact htidied
  case isTrue =>
    rcases (m.tidied kv seq usage).1.contextShift_cache (m.tidied kv seq usage).2 seq with
      hkv | ⟨plan, -, hkv⟩
    · rw [hkv]
      exact htidied
    · rw [hkv]
      have hremoved := hown _ plan.keep plan.cut htidied
      split
      · exact hshift _ plan.cut plan.past _ hremoved
      · exact hremoved

end Preserved

end ChatInference.Memory
