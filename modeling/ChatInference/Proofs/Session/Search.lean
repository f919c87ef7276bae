import ChatInference.Proofs.Keyed.Keys
import ChatInference.Session.Table
import Mathlib.Data.List.Nodup
import Mathlib.Data.List.Perm.Subperm
import Mathlib.Tactic.Push

/-! The search for the id of a new session: it runs through all ids in a circle, and ends at one that
is not in use if there is any. -/

namespace ChatInference.SessionTable

/-- The ids from `start` on, in the order of the search. -/
def idFrom (start n : Nat) : Nat := (start - 1 + n) % (idLimit - 1) + 1

theorem idLimit_eq : idLimit = 4294967296 := rfl

def InRange (id : Nat) : Prop := 1 ≤ id ∧ id < idLimit

instance (id : Nat) : Decidable (InRange id) := inferInstanceAs (Decidable (1 ≤ id ∧ id < idLimit))

theorem succId_eq (id : Nat) : (succId id : Nat) = max 1 ((id + 1) % 4294967296) := rfl

theorem inRange_succId (id : Nat) : InRange (succId id) := by
  unfold InRange
  rw [idLimit_eq, succId_eq]
  omega

theorem idFrom_zero {start : Nat} (h : InRange start) : idFrom start 0 = start := by
  unfold InRange at h
  unfold idFrom
  rw [idLimit_eq] at *
  omega

theorem succId_idFrom (start n : Nat) : succId (idFrom start n) = idFrom start (n + 1) := by
  have h : max 1 ((idFrom start n + 1) % 4294967296) = idFrom start (n + 1) := by
    unfold idFrom
    rw [idLimit_eq]
    omega
  rw [succId_eq]
  exact h

theorem idFrom_inj {start i j : Nat} (hi : i < idLimit - 1) (hj : j < idLimit - 1)
    (h : idFrom start i = idFrom start j) : i = j := by
  unfold idFrom at h
  rw [idLimit_eq] at *
  omega

theorem exists_idFrom (start : Nat) {id : Nat} (h : InRange id) :
    ∃ n, n < idLimit - 1 ∧ idFrom start n = id := by
  -- the distance from `start` to `id` on the circle
  refine ⟨(id - 1 + (idLimit - 1 - (start - 1) % (idLimit - 1))) % (idLimit - 1), ?_, ?_⟩
  · rw [idLimit_eq]
    omega
  · unfold InRange at h
    unfold idFrom
    rw [idLimit_eq] at *
    omega

/-- The search passes ids in use only, and stops before its end at none in use. -/
theorem searchId_idFrom (t : SessionTable) (start : Nat) : ∀ n k, ∃ m, k ≤ m ∧ m ≤ k + n ∧
    t.searchId n (idFrom start k) = idFrom start m ∧
    (∀ j, k ≤ j → j < m → t.contains (idFrom start j) = true) ∧
    (m < k + n → t.contains (idFrom start m) = false) := by
  intro n
  -- over the steps the search may still take, from any id on
  induction n with
  | zero =>
    intro k
    exact ⟨k, Nat.le_refl k, Nat.le_refl k, rfl, fun j hj hm => by omega, fun hm => by omega⟩
  | succ n ih =>
    intro k
    by_cases hc : t.contains (idFrom start k) = true
    · obtain ⟨m, hkm, hmn, hs, hused, hfree⟩ := ih (k + 1)
      refine ⟨m, by omega, by omega, ?_, ?_, fun hm => hfree (by omega)⟩
      · rw [searchId, if_pos hc, succId_idFrom]
        exact hs
      · intro j hj hm
        by_cases hjk : j = k
        · rw [hjk]
          exact hc
        · exact hused j (by omega) hm
    · refine ⟨k, Nat.le_refl k, by omega, ?_, fun j hj hm => by omega, fun _ => ?_⟩
      · rw [searchId, if_neg hc]
      · exact Bool.eq_false_iff.2 hc

/-- More different ids than there are sessions are not all in use. -/
theorem exists_not_contains (t : SessionTable) (start : Nat) (h : t.size < idLimit - 1) :
    ∃ j, j ≤ t.size ∧ t.contains (idFrom start j) = false := by
  by_contra hall
  push Not at hall
  -- one id more than there are keys, all different and all among the keys
  let ids := (List.range (t.size + 1)).map (idFrom start)
  have hnodup : ids.Nodup := by
    apply List.Nodup.map_on _ List.nodup_range
    intro i hi j hj hij
    rw [List.mem_range] at hi hj
    exact idFrom_inj (by omega) (by omega) hij
  have hsub : ids ⊆ t.sessions.keys := by
    intro id hid
    obtain ⟨j, hj, rfl⟩ := List.mem_map.1 hid
    rw [List.mem_range] at hj
    apply Keyed.mem_keys_iff.2
    exact Bool.ne_false_iff.1 (hall j (by omega))
  have hle : ids.length ≤ t.sessions.keys.length := (hnodup.subperm hsub).length_le
  rw [← Keyed.size_eq_length_keys, List.length_map, List.length_range] at hle
  change t.size + 1 ≤ t.size at hle
  omega

/-- Where any id is free, the search finds one that is. -/
theorem searchId_free {t : SessionTable} (hnext : InRange t.nextId)
    (hfree : ∃ id, InRange id ∧ t.contains id = false) :
    t.contains (t.searchId t.size t.nextId) = false := by
  obtain ⟨m, -, hm, hs, hused, hstop⟩ := searchId_idFrom t t.nextId t.size 0
  rw [idFrom_zero hnext] at hs
  rw [hs]
  by_cases hend : m < t.size
  · exact hstop (by omega)
  · -- the search went as far as it may; one of the ids it passed or stopped at is free
    have hj : ∃ j, j ≤ t.size ∧ t.contains (idFrom t.nextId j) = false := by
      by_cases hroom : t.size < idLimit - 1
      · exact exists_not_contains t t.nextId hroom
      · obtain ⟨id, hid, hc⟩ := hfree
        obtain ⟨j, hj, rfl⟩ := exists_idFrom t.nextId hid
        exact ⟨j, by omega, hc⟩
    obtain ⟨j, hj, hc⟩ := hj
    by_cases hjm : j < m
    · have hc' := hused j (Nat.zero_le j) hjm
      rw [hc] at hc'
      cases hc'
    · have hjeq : j = m := by omega
      rw [← hjeq]
      exact hc

end ChatInference.SessionTable
