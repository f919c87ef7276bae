import ChatInference.Keyed.Lemmas
import Mathlib.Data.List.Perm.Basic

/-! The keys of a map, each once, and how many the operations leave. -/

namespace ChatInference.Keyed

variable {α : Type}

theorem size_eq_length_keys (m : Keyed α) : m.size = m.keys.length := by
  unfold size keys
  exact (List.length_map _).symm

theorem keys_nodup (m : Keyed α) : m.keys.Nodup := by
  unfold keys List.Nodup
  rw [List.pairwise_map]
  exact m.sorted.imp Nat.ne_of_lt

theorem mem_keys_iff {m : Keyed α} {k : Nat} : k ∈ m.keys ↔ m.contains k = true := by
  unfold keys contains
  rw [List.mem_map, Option.isSome_iff_exists]
  constructor
  · rintro ⟨⟨l, v⟩, he, rfl⟩
    exact ⟨v, get?_eq_some_iff.2 he⟩
  · rintro ⟨v, hv⟩
    exact ⟨(k, v), get?_eq_some_iff.1 hv, rfl⟩

theorem mem_keys_of_get? {m : Keyed α} {k : Nat} {v : α} (h : m.get? k = some v) : k ∈ m.keys := by
  apply mem_keys_iff.2
  unfold contains
  rw [h]
  rfl

theorem get?_of_not_mem_keys {m : Keyed α} {k : Nat} (h : k ∉ m.keys) : m.get? k = none := by
  cases hg : m.get? k with
  | none => rfl
  | some v => exact absurd (mem_keys_of_get? hg) h

/-- A value stands in the map where it stands under some key. -/
theorem mem_values_iff {m : Keyed α} {v : α} : v ∈ m.values ↔ ∃ k, m.get? k = some v := by
  unfold values
  rw [List.mem_map]
  constructor
  · rintro ⟨⟨k, w⟩, he, rfl⟩
    exact ⟨k, get?_eq_some_iff.2 he⟩
  · rintro ⟨k, hk⟩
    exact ⟨(k, v), get?_eq_some_iff.1 hk, rfl⟩

/-- What is left by an erasure was there before. -/
theorem get?_of_erase {m : Keyed α} {k l : Nat} {v : α} (h : (m.erase k).get? l = some v) :
    m.get? l = some v := by
  rw [get?_erase] at h
  split at h
  · cases h
  · exact h

theorem erase_of_missing {m : Keyed α} {k : Nat} (h : m.get? k = none) : m.erase k = m := by
  apply ext_get?
  intro l
  rw [get?_erase]
  split
  case isTrue hl => rw [hl, h]
  case isFalse => rfl

/-- What is taken out and put back is where it was. -/
theorem set_erase {m : Keyed α} {k : Nat} {v : α} (h : m.get? k = some v) :
    (m.erase k).set k v = m := by
  apply ext_get?
  intro l
  rw [get?_set, get?_erase]
  by_cases hl : l = k
  · rw [if_pos hl, hl, h]
  · rw [if_neg hl, if_neg hl]

theorem keys_filter (m : Keyed α) (p : Nat → Bool) :
    (m.filter fun k _ => p k).keys = m.keys.filter p := by
  unfold keys filter
  rw [List.filter_map]
  rfl

theorem mem_keys_set {m : Keyed α} {k l : Nat} {v : α} :
    l ∈ (m.set k v).keys ↔ l = k ∨ l ∈ m.keys := by
  rw [mem_keys_iff, mem_keys_iff]
  unfold contains
  rw [get?_set]
  by_cases h : l = k
  · simp [h]
  · simp [h]

theorem size_eq_of_mem_iff {m n : Keyed α} (h : ∀ k, k ∈ m.keys ↔ k ∈ n.keys) :
    m.size = n.size := by
  have hp : m.keys.Perm n.keys := (List.perm_ext_iff_of_nodup m.keys_nodup n.keys_nodup).2 h
  rw [size_eq_length_keys, size_eq_length_keys]
  exact hp.length_eq

theorem mem_keys_erase {m : Keyed α} {k l : Nat} :
    l ∈ (m.erase k).keys ↔ l ≠ k ∧ l ∈ m.keys := by
  rw [mem_keys_iff, mem_keys_iff]
  unfold contains
  rw [get?_erase]
  by_cases h : l = k
  · simp [h]
  · simp [h]

/-- A new key joins the others. -/
theorem keys_set_perm {m : Keyed α} {k : Nat} (h : k ∉ m.keys) (v : α) :
    (m.set k v).keys.Perm (k :: m.keys) := by
  have hnodup : (k :: m.keys).Nodup := List.nodup_cons.2 ⟨h, m.keys_nodup⟩
  apply (List.perm_ext_iff_of_nodup (keys_nodup _) hnodup).2
  intro l
  rw [mem_keys_set, List.mem_cons]

/-- A key that is taken out leaves the others. -/
theorem keys_erase_perm {m : Keyed α} {k : Nat} (h : k ∈ m.keys) :
    m.keys.Perm (k :: (m.erase k).keys) := by
  have hnodup : (k :: (m.erase k).keys).Nodup := by
    refine List.nodup_cons.2 ⟨?_, keys_nodup _⟩
    intro hk
    exact (mem_keys_erase.1 hk).1 rfl
  apply (List.perm_ext_iff_of_nodup m.keys_nodup hnodup).2
  intro l
  rw [List.mem_cons, mem_keys_erase]
  by_cases hl : l = k
  · exact iff_of_true (hl ▸ h) (.inl hl)
  · exact ⟨fun hm => .inr ⟨hl, hm⟩, fun hm => (hm.resolve_left hl).2⟩

theorem size_set_of_not_mem {m : Keyed α} {k : Nat} (h : k ∉ m.keys) (v : α) :
    (m.set k v).size = m.size + 1 := by
  rw [size_eq_length_keys, size_eq_length_keys]
  exact (keys_set_perm h v).length_eq

theorem size_set_le (m : Keyed α) (k : Nat) (v : α) : (m.set k v).size ≤ m.size + 1 := by
  by_cases hk : k ∈ m.keys
  · -- the key keeps its place
    have hsame : (m.set k v).size = m.size := by
      apply size_eq_of_mem_iff
      intro l
      rw [mem_keys_set]
      constructor
      · rintro (rfl | hl)
        · exact hk
        · exact hl
      · exact Or.inr
    omega
  · exact Nat.le_of_eq (size_set_of_not_mem hk v)

/-- Taking out keys that are in the map, each named once, makes it smaller by as many. -/
theorem size_filter_not_mem {m : Keyed α} {ks : List Nat} (hnodup : ks.Nodup)
    (hmem : ∀ k ∈ ks, k ∈ m.keys) :
    (m.filter fun k _ => !ks.contains k).size + ks.length = m.size := by
  -- the keys taken out are those of the map that satisfy the condition, each once
  have hin : ks.Perm (m.keys.filter ks.contains) := by
    apply (List.perm_ext_iff_of_nodup hnodup (m.keys_nodup.filter _)).2
    intro k
    rw [List.mem_filter, List.contains_iff_mem]
    constructor
    · intro hk
      exact ⟨hmem k hk, hk⟩
    · intro hk
      exact hk.2
  have hsplit := (List.filter_append_perm ks.contains m.keys).length_eq
  rw [List.length_append, ← hin.length_eq] at hsplit
  rw [size_eq_length_keys, size_eq_length_keys, keys_filter m fun k => !ks.contains k]
  omega

theorem size_erase_of_mem {m : Keyed α} {k : Nat} (h : k ∈ m.keys) :
    (m.erase k).size + 1 = m.size := by
  rw [size_eq_length_keys, size_eq_length_keys]
  exact (keys_erase_perm h).length_eq.symm

end ChatInference.Keyed
