import ChatInference.Keyed.Basic

/-!
What each operation on a map does to what stands under a key. Maps with the same values under the
same keys are equal, so these equations say all there is to say of a map.
-/

namespace ChatInference.Keyed

variable {α β : Type}

theorem lookup_eq_some_iff {es : List (Nat × α)} (h : es.Pairwise (fun a b => a.1 < b.1))
    {k : Nat} {v : α} : es.lookup k = some v ↔ (k, v) ∈ es := by
  induction es with
  | nil => simp
  | cons e es ih =>
    obtain ⟨l, w⟩ := e
    obtain ⟨hl, hes⟩ := List.pairwise_cons.1 h
    by_cases hk : k = l
    · subst hk
      have hv : (k, v) ∉ es := fun hm => Nat.lt_irrefl k (hl _ hm)
      simp [hv, eq_comm]
    · have hb : (k == l) = false := by simpa using hk
      simp [List.lookup_cons, hb, hk, ih hes]

theorem get?_eq_some_iff {m : Keyed α} {k : Nat} {v : α} :
    m.get? k = some v ↔ (k, v) ∈ m.entries :=
  lookup_eq_some_iff m.sorted

theorem entries_ext {as bs : List (Nat × α)} (ha : as.Pairwise (fun a b => a.1 < b.1))
    (hb : bs.Pairwise (fun a b => a.1 < b.1)) (h : ∀ e, e ∈ as ↔ e ∈ bs) : as = bs := by
  induction as generalizing bs with
  | nil => exact (List.eq_nil_iff_forall_not_mem.2 fun e he => by simpa using (h e).2 he).symm
  | cons a as ih =>
    obtain ⟨ha', has⟩ := List.pairwise_cons.1 ha
    cases bs with
    | nil => simpa using (h a).1 List.mem_cons_self
    | cons b bs =>
      obtain ⟨hb', hbs⟩ := List.pairwise_cons.1 hb
      have hab : a = b := by
        rcases List.mem_cons.1 ((h a).1 List.mem_cons_self) with hab | ham
        · exact hab
        · rcases List.mem_cons.1 ((h b).2 List.mem_cons_self) with hba | hbm
          · exact hba.symm
          · exact absurd (Nat.lt_trans (hb' a ham) (ha' b hbm)) (Nat.lt_irrefl _)
      subst hab
      congr 1
      refine ih has hbs fun e => ⟨fun he => ?_, fun he => ?_⟩
      · rcases List.mem_cons.1 ((h e).1 (List.mem_cons_of_mem _ he)) with rfl | he'
        · exact absurd (ha' e he) (Nat.lt_irrefl _)
        · exact he'
      · rcases List.mem_cons.1 ((h e).2 (List.mem_cons_of_mem _ he)) with rfl | he'
        · exact absurd (hb' e he) (Nat.lt_irrefl _)
        · exact he'

/-- A map is what stands under its keys. -/
theorem ext_get? {m n : Keyed α} (h : ∀ k, m.get? k = n.get? k) : m = n := by
  have he : m.entries = n.entries := entries_ext m.sorted n.sorted fun ⟨k, v⟩ => by
    rw [← get?_eq_some_iff, ← get?_eq_some_iff, h]
  obtain ⟨es, hs⟩ := m
  obtain ⟨fs, ht⟩ := n
  cases he
  rfl

@[simp] theorem get?_empty (k : Nat) : (∅ : Keyed α).get? k = none := rfl

theorem mem_insertEntry_iff {k : Nat} {v : α} {es : List (Nat × α)}
    (h : es.Pairwise (fun a b => a.1 < b.1)) {e : Nat × α} :
    e ∈ insertEntry k v es ↔ e = (k, v) ∨ e ∈ es ∧ e.1 ≠ k := by
  induction es with
  | nil => simp [insertEntry]
  | cons d es ih =>
    obtain ⟨hd, hes⟩ := List.pairwise_cons.1 h
    have hlt : ∀ e ∈ es, d.1 < e.1 := hd
    simp only [insertEntry]
    split
    case isTrue hk =>
      constructor
      · intro he
        rcases List.mem_cons.1 he with rfl | he
        · exact .inl rfl
        · refine .inr ⟨he, ?_⟩
          rcases List.mem_cons.1 he with rfl | he
          · omega
          · have := hlt e he
            omega
      · rintro (rfl | ⟨he, -⟩)
        · exact List.mem_cons_self
        · exact List.mem_cons_of_mem _ he
    case isFalse hk =>
      split
      case isTrue hk' =>
        subst hk'
        constructor
        · intro he
          rcases List.mem_cons.1 he with rfl | he
          · exact .inl rfl
          · exact .inr ⟨List.mem_cons_of_mem _ he, Nat.ne_of_gt (hlt e he)⟩
        · rintro (rfl | ⟨he, hne⟩)
          · exact List.mem_cons_self
          · rcases List.mem_cons.1 he with rfl | he
            · exact absurd rfl hne
            · exact List.mem_cons_of_mem _ he
      case isFalse hk' =>
        rw [List.mem_cons, ih hes, List.mem_cons]
        constructor
        · rintro (rfl | rfl | ⟨he, hne⟩)
          · exact .inr ⟨.inl rfl, fun h => hk' h.symm⟩
          · exact .inl rfl
          · exact .inr ⟨.inr he, hne⟩
        · rintro (rfl | ⟨rfl | he, hne⟩)
          · exact .inr (.inl rfl)
          · exact .inl rfl
          · exact .inr (.inr ⟨he, hne⟩)

theorem get?_set (m : Keyed α) (k : Nat) (v : α) (l : Nat) :
    (m.set k v).get? l = if l = k then some v else m.get? l := by
  apply Option.ext
  intro w
  have hm : (l, w) ∈ insertEntry k v m.entries ↔ _ := mem_insertEntry_iff m.sorted
  rw [get?_eq_some_iff, set, hm]
  split
  case isTrue h => subst h; simp [eq_comm]
  case isFalse h => simp [h, get?_eq_some_iff]

theorem get?_filter (m : Keyed α) (p : Nat → α → Bool) (k : Nat) :
    (m.filter p).get? k = (m.get? k).filter (p k) := by
  apply Option.ext
  intro w
  rw [get?_eq_some_iff, filter, List.mem_filter, Option.filter_eq_some_iff, get?_eq_some_iff]

theorem get?_erase (m : Keyed α) (k l : Nat) :
    (m.erase k).get? l = if l = k then none else m.get? l := by
  rw [erase, get?_filter]
  split
  case isTrue h => subst h; cases m.get? l <;> simp [Option.filter]
  case isFalse h => cases m.get? l <;> simp [Option.filter, h]

theorem get?_erase_self (m : Keyed α) (k : Nat) : (m.erase k).get? k = none := by
  rw [get?_erase, if_pos rfl]

theorem get?_map (m : Keyed α) (f : Nat → α → β) (k : Nat) :
    (m.map f).get? k = (m.get? k).map (f k) := by
  apply Option.ext
  intro w
  rw [get?_eq_some_iff, map, List.mem_map, Option.map_eq_some_iff]
  constructor
  · rintro ⟨⟨l, v⟩, he, h⟩
    cases h
    exact ⟨v, get?_eq_some_iff.2 he, rfl⟩
  · rintro ⟨v, hv, rfl⟩
    exact ⟨(k, v), get?_eq_some_iff.1 hv, rfl⟩

theorem get?_modify (m : Keyed α) (k : Nat) (f : α → α) (l : Nat) :
    (m.modify k f).get? l = if l = k then (m.get? l).map f else m.get? l := by
  rw [modify, get?_map]
  split
  case isTrue => simp
  case isFalse h => simp

end ChatInference.Keyed
