import ChatInference.Proofs.Session.Census

/-!
Who is evicted, and what evictions and creations leave alone. An eviction takes sessions that are
ready and reports them all. A creation that fails has evicted nobody, whatever calls came before it: the
table never holds more than it may, so where an eviction finds somebody there is room afterwards.
-/

namespace ChatInference.SessionTable

variable {t : SessionTable} {p : SessionPolicy} {now : Nat}

theorem get?_removeAll (t : SessionTable) (ids : List SessionId) (k : SessionId) :
    (t.removeAll ids).sessions.get? k = if k ∈ ids then none else t.sessions.get? k := by
  unfold removeAll
  rw [Keyed.get?_filter]
  by_cases hk : k ∈ ids
  · rw [if_pos hk]
    cases t.sessions.get? k <;> simp [hk]
  · rw [if_neg hk]
    cases t.sessions.get? k <;> simp [hk]

/-- Who is left was there before. -/
theorem get?_of_removeAll {ids : List SessionId} {k : SessionId} {s : Session}
    (h : (t.removeAll ids).sessions.get? k = some s) : t.sessions.get? k = some s := by
  rw [get?_removeAll] at h
  split at h
  · cases h
  · exact h

theorem removeAll_removeAll (t : SessionTable) (ids ids' : List SessionId) :
    (t.removeAll ids).removeAll ids' = t.removeAll (ids ++ ids') := by
  have hsessions : ((t.removeAll ids).removeAll ids').sessions =
      (t.removeAll (ids ++ ids')).sessions := by
    apply Keyed.ext_get?
    intro k
    rw [get?_removeAll, get?_removeAll, get?_removeAll]
    by_cases hk : k ∈ ids <;> by_cases hk' : k ∈ ids' <;> simp [hk, hk']
  calc (t.removeAll ids).removeAll ids'
      = { t with sessions := ((t.removeAll ids).removeAll ids').sessions } := rfl
    _ = { t with sessions := (t.removeAll (ids ++ ids')).sessions } := by rw [hsessions]
    _ = t.removeAll (ids ++ ids') := rfl

theorem evictIdle_table (t : SessionTable) (p : SessionPolicy) (now : Nat) :
    (t.evictIdle p now).2 = t.removeAll (t.evictIdle p now).1 := by
  unfold evictIdle
  split
  · rfl
  · exact (removeAll_nil t).symm

theorem evictOldest_table (t : SessionTable) (p : SessionPolicy) :
    (t.evictOldest p).2 = t.removeAll (t.evictOldest p).1 := by
  unfold evictOldest
  split
  · rfl
  · exact (removeAll_nil t).symm

/-- Whom a creation evicts: the idle ones first, then the oldest as far as there is need. -/
def evictedFor (t : SessionTable) (p : SessionPolicy) (now : Nat) : List SessionId :=
  (t.evictIdle p now).1 ++ ((t.evictIdle p now).2.evictOldest p).1

theorem searched_eq (t : SessionTable) (p : SessionPolicy) (now : Nat) :
    t.searched p now = t.removeAll (t.evictedFor p now) := by
  unfold searched evictedFor
  rw [evictOldest_table, evictIdle_table, removeAll_removeAll]

/-- What a creation comes to: its id is in use already, or the table is full after the evictions, or the
session is there and the evicted ones are gone. -/
theorem create_cases (t : SessionTable) (p : SessionPolicy) (now : Nat)
    (requested : Option SessionId) :
    ((∃ id, requested = some id ∧ t.contains id = true) ∧
        ∃ e, t.create p now requested = (.error e, t)) ∨
      (¬∃ id, requested = some id ∧ t.contains id = true) ∧
        (p.maxSessions ≤ (t.searched p now).size ∧
            (∃ e, t.create p now requested = (.error e, t.searched p now)) ∨
          (t.searched p now).size < p.maxSessions ∧
            t.create p now requested =
              (.ok ⟨((t.searched p now).insert now requested).1, t.evictedFor p now⟩,
                ((t.searched p now).insert now requested).2)) := by
  -- an id in use is found before anybody is evicted
  by_cases hused : ∃ id, requested = some id ∧ t.contains id = true
  · left
    obtain ⟨id, rfl, hid⟩ := hused
    refine ⟨⟨id, rfl, hid⟩, .invalidArgument s!"session {id} already exists", ?_⟩
    unfold create
    rw [show (some id).filter t.contains = some id by simp [Option.filter, hid]]
  · right
    refine ⟨hused, ?_⟩
    have hfree : requested.filter t.contains = none := by
      cases requested with
      | none => rfl
      | some id =>
        have hid : t.contains id = false := Bool.eq_false_iff.2 fun h => hused ⟨id, rfl, h⟩
        simp [Option.filter, hid]
    have hcreate : t.create p now requested =
        if p.maxSessions ≤ (t.searched p now).size then
          (.error (.resourceExhausted
            s!"session table full ({(t.searched p now).size}/{p.maxSessions})"), t.searched p now)
        else
          (.ok ⟨((t.searched p now).insert now requested).1, t.evictedFor p now⟩,
            ((t.searched p now).insert now requested).2) := by
      unfold create
      rw [hfree]
      rfl
    by_cases hfull : p.maxSessions ≤ (t.searched p now).size
    · rw [if_pos hfull] at hcreate
      exact .inl ⟨hfull, _, hcreate⟩
    · rw [if_neg hfull] at hcreate
      exact .inr ⟨Nat.lt_of_not_le hfull, hcreate⟩

theorem mem_oldestFirst {ss : List Session} {id : SessionId} :
    id ∈ oldestFirst ss ↔ ∃ s ∈ ss, s.id = id := by
  rw [(oldestFirst_perm ss).mem_iff, List.mem_map]

theorem mem_idlers {s : Session} (h : t.Sound) :
    s ∈ t.idlers ↔ t.sessions.get? s.id = some s ∧ s.state = .ready := by
  unfold idlers
  rw [List.mem_filter, Keyed.mem_values_iff, decide_eq_true_eq]
  constructor
  · rintro ⟨⟨k, hk⟩, hready⟩
    rw [h.kept k s hk]
    exact ⟨hk, hready⟩
  · rintro ⟨hs, hready⟩
    exact ⟨⟨s.id, hs⟩, hready⟩

/-- The idle sweep takes the sessions that are ready and idle for too long, and no others. -/
theorem mem_evictIdle (h : t.Sound) {id : SessionId} :
    id ∈ (t.evictIdle p now).1 ↔ p.autoCleanup = true ∧
      ∃ s, t.sessions.get? id = some s ∧ s.state = .ready ∧ p.idleTimeoutMs < s.idleFor now := by
  unfold evictIdle
  by_cases hauto : p.autoCleanup = true
  · rw [if_pos hauto]
    simp only [mem_oldestFirst, List.mem_filter, decide_eq_true_eq, mem_idlers h, hauto, true_and]
    constructor
    · rintro ⟨s, ⟨⟨hs, hready⟩, hidle⟩, rfl⟩
      exact ⟨s, hs, hready, hidle⟩
    · rintro ⟨s, hs, hready, hidle⟩
      have hid : s.id = id := h.kept id s hs
      rw [← hid] at hs
      exact ⟨s, ⟨⟨hs, hready⟩, hidle⟩, hid⟩
  · rw [if_neg hauto]
    simp [hauto]

/-- Where nobody can be found for an eviction, a turn runs in every session. -/
theorem running_of_no_idlers (h : t.Sound) (hnobody : oldestFirst t.idlers = []) {id : SessionId}
    {s : Session} (hs : t.sessions.get? id = some s) : s.state = .running := by
  cases hstate : s.state with
  | running => rfl
  | ready =>
    have hid : s.id = id := h.kept id s hs
    rw [← hid] at hs
    have hmem : s.id ∈ oldestFirst t.idlers :=
      mem_oldestFirst.2 ⟨s, (mem_idlers h).2 ⟨hs, hstate⟩, rfl⟩
    rw [hnobody] at hmem
    cases hmem

theorem ready_of_mem_evictOldest (h : t.Sound) {id : SessionId} (hid : id ∈ (t.evictOldest p).1) :
    p.autoCleanup = true ∧ ∃ s, t.sessions.get? id = some s ∧ s.state = .ready := by
  unfold evictOldest at hid
  split at hid
  case isTrue hfull =>
    have hauto : p.autoCleanup = true := (Bool.and_eq_true_iff.1 hfull).1
    obtain ⟨s, hs, rfl⟩ := mem_oldestFirst.1 (List.mem_of_mem_take hid)
    exact ⟨hauto, s, (mem_idlers h).1 hs⟩
  case isFalse => cases hid

/-- A creation evicts sessions that are ready. -/
theorem ready_of_mem_evictedFor (h : t.Sound) {id : SessionId} (hid : id ∈ t.evictedFor p now) :
    p.autoCleanup = true ∧ ∃ s, t.sessions.get? id = some s ∧ s.state = .ready := by
  rcases List.mem_append.1 hid with hidle | hold
  · obtain ⟨hauto, s, hs, hready, -⟩ := (mem_evictIdle h).1 hidle
    exact ⟨hauto, s, hs, hready⟩
  -- the oldest are looked for among those that the sweep left, which were there before it
  · obtain ⟨hauto, s, hs, hready⟩ := ready_of_mem_evictOldest (evicted_evictIdle h p now).sound hold
    rw [evictIdle_table] at hs
    exact ⟨hauto, s, get?_of_removeAll hs, hready⟩

theorem get?_insert_of_ne {requested : Option SessionId} {k : SessionId}
    (hk : k ≠ (t.insert now requested).1) :
    (t.insert now requested).2.sessions.get? k = t.sessions.get? k := by
  have hget : (t.insert now requested).2.sessions.get? k =
      if k = (t.insert now requested).1 then _ else t.sessions.get? k :=
    Keyed.get?_set t.sessions _ _ k
  rw [hget, if_neg hk]

theorem size_insert_le (t : SessionTable) (now : Nat) (requested : Option SessionId) :
    (t.insert now requested).2.size ≤ t.size + 1 :=
  Keyed.size_set_le t.sessions _ _

/-- A session that was asked for by its id is as good as one that was not. -/
theorem sound_insert_requested (h : t.Sound) (now : Nat) (requested : Option SessionId) :
    (t.insert now requested).2.Sound := by
  cases requested with
  | none => exact sound_insert h now
  | some id =>
    -- the next id goes past the one asked for, and stops at the last there is
    have hnext : InRange (max t.nextId (min (id + 1) (idLimit - 1))) := by
      have hn := h.next
      unfold InRange at hn ⊢
      rw [idLimit_eq] at hn ⊢
      omega
    refine ⟨?_, hnext⟩
    intro k s hs
    by_cases hk : k = id
    · have hget : ((t.insert now (some id)).2.sessions.get? k) = if k = id then some _ else _ :=
        Keyed.get?_set t.sessions id _ k
      rw [if_pos hk] at hget
      cases hget.symm.trans hs
      exact hk.symm
    · rw [get?_insert_of_ne hk] at hs
      exact h.kept k s hs

end ChatInference.SessionTable
