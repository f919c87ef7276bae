/-! Maps from numbers, kept in ascending order of their keys. -/

namespace ChatInference

structure Keyed (α : Type) where
  entries : List (Nat × α)
  sorted : entries.Pairwise (fun a b => a.1 < b.1) := by simp

namespace Keyed

variable {α β : Type}

instance [DecidableEq α] : DecidableEq (Keyed α) := fun a b =>
  decidable_of_iff (a.entries = b.entries)
    ⟨fun h => by cases a; cases b; cases h; rfl, fun h => h ▸ rfl⟩

def empty : Keyed α := ⟨[], List.Pairwise.nil⟩

instance : EmptyCollection (Keyed α) := ⟨empty⟩

instance : Inhabited (Keyed α) := ⟨empty⟩

def keys (m : Keyed α) : List Nat := m.entries.map (·.1)

def values (m : Keyed α) : List α := m.entries.map (·.2)

def size (m : Keyed α) : Nat := m.entries.length

def isEmpty (m : Keyed α) : Bool := m.entries.isEmpty

def get? (m : Keyed α) (k : Nat) : Option α := m.entries.lookup k

def contains (m : Keyed α) (k : Nat) : Bool := (m.get? k).isSome

def filter (m : Keyed α) (p : Nat → α → Bool) : Keyed α :=
  ⟨m.entries.filter fun e => p e.1 e.2, m.sorted.filter _⟩

def erase (m : Keyed α) (k : Nat) : Keyed α := m.filter fun k' _ => k' != k

def map (m : Keyed α) (f : Nat → α → β) : Keyed β :=
  ⟨m.entries.map fun e => (e.1, f e.1 e.2), by
    rw [List.pairwise_map]; exact m.sorted⟩

def insertEntry (k : Nat) (v : α) : List (Nat × α) → List (Nat × α)
  | [] => [(k, v)]
  | e :: es =>
    if k < e.1 then (k, v) :: e :: es
    else if k = e.1 then (k, v) :: es
    else e :: insertEntry k v es

theorem mem_insertEntry {k : Nat} {v : α} {es : List (Nat × α)} {e : Nat × α}
    (h : e ∈ insertEntry k v es) : e = (k, v) ∨ e ∈ es := by
  induction es with
  | nil => simpa [insertEntry] using h
  | cons d es ih =>
    simp only [insertEntry] at h
    split at h
    · simpa using h
    · split at h
      · rcases List.mem_cons.1 h with rfl | h
        · exact .inl rfl
        · exact .inr (List.mem_cons_of_mem _ h)
      · rcases List.mem_cons.1 h with rfl | h
        · exact .inr List.mem_cons_self
        · rcases ih h with rfl | h
          · exact .inl rfl
          · exact .inr (List.mem_cons_of_mem _ h)

theorem insertEntry_sorted (k : Nat) (v : α) {es : List (Nat × α)}
    (h : es.Pairwise (fun a b => a.1 < b.1)) :
    (insertEntry k v es).Pairwise (fun a b => a.1 < b.1) := by
  induction es with
  | nil => simp [insertEntry]
  | cons d es ih =>
    have hd := List.pairwise_cons.1 h
    simp only [insertEntry]
    split
    case isTrue hk =>
      refine List.pairwise_cons.2 ⟨fun e he => ?_, h⟩
      rcases List.mem_cons.1 he with rfl | he
      · exact hk
      · exact Nat.lt_trans hk (hd.1 e he)
    case isFalse hk =>
      split
      case isTrue hk' =>
        exact List.pairwise_cons.2 ⟨fun e he => by simpa [hk'] using hd.1 e he, hd.2⟩
      case isFalse hk' =>
        refine List.pairwise_cons.2 ⟨fun e he => ?_, ih hd.2⟩
        rcases mem_insertEntry he with rfl | he
        · show d.1 < k
          omega
        · exact hd.1 e he

/-- Sets what stands under a key. -/
def set (m : Keyed α) (k : Nat) (v : α) : Keyed α :=
  ⟨insertEntry k v m.entries, insertEntry_sorted k v m.sorted⟩

def modify (m : Keyed α) (k : Nat) (f : α → α) : Keyed α :=
  m.map fun k' v => if k' = k then f v else v

end Keyed

end ChatInference
