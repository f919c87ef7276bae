import ChatInference.Json.Reader
import Mathlib.Data.List.Nodup

/-!
Members by key. No key occurs twice in an object that was read, so that a look-up finds the one member
of its key, also where members were left out.
-/

namespace ChatInference.Json

section Lookup

variable {members : List (String × Json)} {key : String} {v : Json}

theorem lookup_eq_some_iff (h : (members.map (·.1)).Nodup) :
    members.lookup key = some v ↔ (key, v) ∈ members := by
  induction members with
  | nil => simp
  | cons m members ih =>
    obtain ⟨k, w⟩ := m
    obtain ⟨hnew, hrest⟩ := List.nodup_cons.1 h
    rw [List.lookup_cons, List.mem_cons, Prod.mk.injEq]
    by_cases hk : key = k
    · subst hk
      -- no later member has the key
      have hnot : (key, v) ∉ members := fun hm => hnew (List.mem_map.2 ⟨(key, v), hm, rfl⟩)
      simp [hnot, eq_comm]
    · have hne : (key == k) = false := beq_eq_false_iff_ne.2 hk
      simp [hne, hk, ih hrest]

theorem mem_of_lookup (h : members.lookup key = some v) : (key, v) ∈ members := by
  obtain ⟨before, after, heq, -⟩ := List.lookup_eq_some_iff.1 h
  rw [heq]
  exact List.mem_append_right before List.mem_cons_self

theorem lookup_filter (h : (members.map (·.1)).Nodup) (p : String × Json → Bool) (key : String) :
    (members.filter p).lookup key = (members.lookup key).filter fun v => p (key, v) := by
  have hless : ((members.filter p).map (·.1)).Nodup := (List.filter_sublist.map _).nodup h
  apply Option.ext
  intro v
  rw [lookup_eq_some_iff hless, List.mem_filter, Option.filter_eq_some_iff, lookup_eq_some_iff h]

end Lookup

theorem nodup_insertMember {members : List (String × Json)} (h : (members.map (·.1)).Nodup)
    (key : String) (v : Json) : ((insertMember members key v).map (·.1)).Nodup := by
  unfold insertMember
  rw [List.map_append, List.map_singleton]
  apply List.Nodup.append ((List.filter_sublist.map _).nodup h) (List.nodup_singleton key)
  intro k hk hnew
  obtain ⟨m, hm, rfl⟩ := List.mem_map.1 hk
  have hkept := (List.mem_filter.1 hm).2
  exact bne_iff_ne.1 hkept (List.mem_singleton.1 hnew)

theorem nodup_foldl_insertMember {members : List (String × Json)}
    (h : (members.map (·.1)).Nodup) (new : List (String × Json)) :
    ((new.foldl (fun ms m => insertMember ms m.1 m.2) members).map (·.1)).Nodup := by
  induction new generalizing members with
  | nil => exact h
  | cons m new ih => exact ih (nodup_insertMember h m.1 m.2)

namespace Reader

theorem value?_ne_obj (n : Numeral) (members : List (String × Json)) :
    n.value? ≠ some (obj members) := by
  unfold Numeral.value?
  split
  · exact nofun
  · cases n.magnitude? with
    | none => exact nofun
    | some x => exact nofun

theorem scalar_ne_obj (cs rest : List Char) (members : List (String × Json)) :
    scalar cs ≠ some (obj members, rest) := by
  unfold scalar
  split
  case h_5 =>
    intro h
    obtain ⟨⟨n, cs'⟩, -, hn⟩ := Option.bind_eq_some_iff.1 h
    obtain ⟨v, hv, hrest⟩ := Option.bind_eq_some_iff.1 hn
    cases hrest
    exact value?_ne_obj n members hv
  all_goals
    intro h
    obtain ⟨x, -, hx⟩ := Option.map_eq_some_iff.1 h
    cases hx

theorem nodup_of_value {depth : Nat} {cs rest : List Char} {members : List (String × Json)}
    (h : value depth cs = some (obj members, rest)) : (members.map (·.1)).Nodup := by
  cases depth with
  | zero => exact absurd h (scalar_ne_obj _ _ _)
  | succ depth =>
    unfold value at h
    split at h
    · obtain ⟨x, -, hx⟩ := Option.map_eq_some_iff.1 h
      cases hx
    · obtain ⟨x, -, hx⟩ := Option.map_eq_some_iff.1 h
      cases hx
      have hnone : (([] : List (String × Json)).map (·.1)).Nodup := List.nodup_nil
      exact nodup_foldl_insertMember hnone x.1
    · exact absurd h (scalar_ne_obj _ _ _)

end Reader

/-- No key occurs twice in an object that was read. -/
theorem nodup_of_read? {cs : List Char} {members : List (String × Json)}
    (h : read? cs = some (obj members)) : (members.map (·.1)).Nodup := by
  obtain ⟨⟨v, rest⟩, hvalue, hv⟩ := Option.bind_eq_some_iff.1 h
  dsimp only at hv
  split at hv
  · cases hv
    exact Reader.nodup_of_value hvalue
  · cases hv

end ChatInference.Json
