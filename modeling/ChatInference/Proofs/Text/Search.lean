import ChatInference.Text.Search
import Mathlib.Data.List.Infix
import Mathlib.Data.List.Basic

/-!
What is found in a text. A search gives the first place where a text stands, and fails only where it
stands nowhere; of several texts it gives the first place of any. What comes before that place has none
of them.
-/

namespace ChatInference.Text

variable {p cs : List Char} {ps : List String} {n k : Nat}

/-- A text occurs in another one where it stands after some characters. -/
theorem infix_iff_exists_drop : p <:+: cs ↔ ∃ n, p <+: cs.drop n := by
  rw [List.infix_iff_prefix_suffix]
  constructor
  · rintro ⟨rest, hp, hrest⟩
    refine ⟨cs.length - rest.length, ?_⟩
    rw [← List.suffix_iff_eq_drop.1 hrest]
    exact hp
  · rintro ⟨n, hp⟩
    exact ⟨cs.drop n, hp, List.drop_suffix n cs⟩

theorem find?_some (h : find? p cs = some n) :
    p <+: cs.drop n ∧ ∀ k, k < n → ¬p <+: cs.drop k := by
  induction cs generalizing n with
  | nil =>
    unfold find? at h
    split at h
    case isFalse => cases h
    case isTrue hp =>
      cases h
      rw [List.isEmpty_iff.1 hp]
      exact ⟨List.nil_prefix, nofun⟩
  | cons c cs ih =>
    unfold find? at h
    split at h
    case isTrue hp =>
      cases h
      exact ⟨List.isPrefixOf_iff_prefix.1 hp, nofun⟩
    case isFalse hp =>
      -- it does not stand at the start, and is looked for in the rest
      obtain ⟨j, hj, rfl⟩ := Option.map_eq_some_iff.1 h
      obtain ⟨hat, hfirst⟩ := ih hj
      refine ⟨hat, fun k hk => ?_⟩
      cases k with
      | zero => exact fun hstart => hp (List.isPrefixOf_iff_prefix.2 hstart)
      | succ k => exact hfirst k (Nat.lt_of_succ_lt_succ hk)

theorem find?_none (h : find? p cs = none) (n : Nat) : ¬p <+: cs.drop n := by
  induction cs generalizing n with
  | nil =>
    unfold find? at h
    split at h
    case isTrue => cases h
    case isFalse hp =>
      rw [List.drop_nil, List.prefix_nil]
      exact fun hnil => hp (List.isEmpty_iff.2 hnil)
  | cons c cs ih =>
    unfold find? at h
    split at h
    case isTrue => cases h
    case isFalse hp =>
      cases n with
      | zero => exact fun hstart => hp (List.isPrefixOf_iff_prefix.2 hstart)
      | succ n => exact ih (Option.map_eq_none_iff.1 h) n

/-- A text that stands somewhere is found there or before. -/
theorem exists_find?_le (h : p <+: cs.drop n) : ∃ k, find? p cs = some k ∧ k ≤ n := by
  cases hfind : find? p cs with
  | none => exact absurd h (find?_none hfind n)
  | some k =>
    refine ⟨k, rfl, Nat.le_of_not_lt fun hlt => ?_⟩
    exact (find?_some hfind).2 n hlt h

/-- The places that a search for the first of some texts chooses from. -/
theorem mem_found :
    k ∈ ((ps.filter (!·.isEmpty)).filterMap fun p => find? p.toList cs) ↔
      ∃ p ∈ ps, p ≠ "" ∧ find? p.toList cs = some k := by
  simp only [List.mem_filterMap, List.mem_filter, Bool.not_eq_true', String.isEmpty_eq_false_iff,
    ne_eq, and_assoc]

theorem findFirst?_eq_none_iff :
    findFirst? ps cs = none ↔ ∀ p ∈ ps, p ≠ "" → ¬p.toList <:+: cs := by
  unfold findFirst?
  rw [List.min?_eq_none_iff, List.eq_nil_iff_forall_not_mem]
  constructor
  · intro hnone p hp hne hinfix
    obtain ⟨n, hn⟩ := infix_iff_exists_drop.1 hinfix
    obtain ⟨k, hk, -⟩ := exists_find?_le hn
    exact hnone k (mem_found.2 ⟨p, hp, hne, hk⟩)
  · intro hnowhere k hk
    obtain ⟨p, hp, hne, hfind⟩ := mem_found.1 hk
    apply hnowhere p hp hne
    exact infix_iff_exists_drop.2 ⟨k, (find?_some hfind).1⟩

/-- One of the texts stands at the place found, and none stands before it. -/
theorem findFirst?_some (h : findFirst? ps cs = some n) :
    (∃ p ∈ ps, p ≠ "" ∧ p.toList <+: cs.drop n) ∧
      ∀ k, ∀ p ∈ ps, p ≠ "" → p.toList <+: cs.drop k → n ≤ k := by
  obtain ⟨hmem, hleast⟩ := List.min?_eq_some_iff.1 h
  constructor
  · obtain ⟨p, hp, hne, hfind⟩ := mem_found.1 hmem
    exact ⟨p, hp, hne, (find?_some hfind).1⟩
  · intro k p hp hne hat
    obtain ⟨j, hj, hle⟩ := exists_find?_le hat
    exact Nat.le_trans (hleast j (mem_found.2 ⟨p, hp, hne, hj⟩)) hle

/-- What is found stands inside the text, and not at its end. -/
theorem lt_length_of_findFirst? (h : findFirst? ps cs = some n) : n < cs.length := by
  obtain ⟨⟨p, -, hne, hat⟩, -⟩ := findFirst?_some h
  apply Nat.lt_of_not_le
  intro hend
  rw [List.drop_of_length_le hend, List.prefix_nil, String.toList_eq_nil_iff] at hat
  exact hne hat

/-- None of the texts occurs in what precedes the first of them: it would have to end past it. -/
theorem not_infix_take (h : findFirst? ps cs = some n) {p : String} (hp : p ∈ ps) (hne : p ≠ "") :
    ¬p.toList <:+: cs.take n := by
  intro hinfix
  obtain ⟨k, hk⟩ := infix_iff_exists_drop.1 hinfix
  have hlen : 0 < p.toList.length := by
    rw [List.length_pos_iff, ne_eq, String.toList_eq_nil_iff]
    exact hne
  have hends : p.toList.length ≤ n - k := by
    calc
      p.toList.length ≤ ((cs.take n).drop k).length := hk.length_le
      _ = min n cs.length - k := by rw [List.length_drop, List.length_take]
      _ ≤ n - k := Nat.sub_le_sub_right (Nat.min_le_left _ _) k
  have hat : p.toList <+: cs.drop k := by
    apply hk.trans
    rw [List.drop_take]
    exact List.take_prefix _ _
  have hfirst : n ≤ k := (findFirst?_some h).2 k p hp hne hat
  omega

end ChatInference.Text
