import ChatInference.Proofs.Session.Search

/-! How many sessions each operation leaves in the table. -/

namespace ChatInference.SessionTable

/-- Each session stands under its own id, and the next id is one. -/
structure Sound (t : SessionTable) : Prop where
  kept : ∀ k s, t.sessions.get? k = some s → s.id = k
  next : InRange t.nextId

theorem sound_empty : Sound {} := by
  refine ⟨?_, by unfold InRange; decide⟩
  intro k s h
  rw [Keyed.get?_empty] at h
  cases h

theorem values_map_id {t : SessionTable} (h : t.Sound) :
    t.sessions.values.map (·.id) = t.sessions.keys := by
  unfold Keyed.values Keyed.keys
  rw [List.map_map]
  apply List.map_congr_left
  intro e he
  exact h.kept e.1 e.2 (Keyed.get?_eq_some_iff.2 he)

theorem oldestFirst_perm (ss : List Session) : (oldestFirst ss).Perm (ss.map (·.id)) := by
  unfold oldestFirst
  exact (List.mergeSort_perm ss _).map _

theorem oldestFirst_nodup {t : SessionTable} (h : t.Sound) {ss : List Session}
    (hs : ss.Sublist t.sessions.values) :
    (oldestFirst ss).Nodup ∧ ∀ id ∈ oldestFirst ss, id ∈ t.sessions.keys := by
  -- the ids of a part of the table are a part of its keys
  have hsub : (ss.map (·.id)).Sublist t.sessions.keys := by
    rw [← values_map_id h]
    exact hs.map _
  constructor
  · exact (oldestFirst_perm ss).nodup_iff.2 (t.sessions.keys_nodup.sublist hsub)
  · intro id hid
    exact hsub.subset ((oldestFirst_perm ss).mem_iff.1 hid)

theorem removeAll_nil (t : SessionTable) : t.removeAll [] = t := by
  unfold removeAll
  have hf : (t.sessions.filter fun id _ => !([] : List SessionId).contains id) = t.sessions := by
    apply Keyed.ext_get?
    intro k
    rw [Keyed.get?_filter]
    cases t.sessions.get? k with
    | none => rfl
    | some s => rfl
  rw [hf]

theorem sound_removeAll {t : SessionTable} (h : t.Sound) (ids : List SessionId) :
    (t.removeAll ids).Sound := by
  refine ⟨?_, h.next⟩
  intro k s hs
  unfold removeAll at hs
  rw [Keyed.get?_filter, Option.filter_eq_some_iff] at hs
  exact h.kept k s hs.1

/-- What an eviction reports is what it took out, and an empty report means it took out nothing. -/
structure Evicted (t : SessionTable) (r : List SessionId × SessionTable) : Prop where
  size : r.2.size + r.1.length = t.size
  sound : r.2.Sound
  nothing : r.1 = [] → r.2 = t

theorem evicted_refl {t : SessionTable} (h : t.Sound) : Evicted t ([], t) :=
  ⟨rfl, h, fun _ => rfl⟩

theorem evicted_removeAll {t : SessionTable} (h : t.Sound) {gone : List SessionId}
    (hnodup : gone.Nodup) (hmem : ∀ id ∈ gone, id ∈ t.sessions.keys) :
    Evicted t (gone, t.removeAll gone) := by
  refine ⟨Keyed.size_filter_not_mem hnodup hmem, sound_removeAll h gone, ?_⟩
  intro hnil
  dsimp only at hnil ⊢
  rw [hnil]
  exact removeAll_nil t

theorem evicted_evictIdle {t : SessionTable} (h : t.Sound) (p : SessionPolicy) (now : Nat) :
    Evicted t (t.evictIdle p now) := by
  unfold evictIdle
  split
  · have hsub : (t.idlers.filter fun s => p.idleTimeoutMs < s.idleFor now).Sublist
        t.sessions.values := List.filter_sublist.trans List.filter_sublist
    have hids := oldestFirst_nodup h hsub
    exact evicted_removeAll h hids.1 hids.2
  · exact evicted_refl h

theorem evicted_evictOldest {t : SessionTable} (h : t.Sound) (p : SessionPolicy) :
    Evicted t (t.evictOldest p) := by
  unfold evictOldest
  split
  · have hsub : t.idlers.Sublist t.sessions.values := List.filter_sublist
    have hids := oldestFirst_nodup h hsub
    apply evicted_removeAll h (hids.1.sublist (List.take_sublist _ _))
    intro id hid
    exact hids.2 id (List.mem_of_mem_take hid)
  · exact evicted_refl h

/-- The table in which a creation looks for an id. -/
def searched (t : SessionTable) (p : SessionPolicy) (now : Nat) : SessionTable :=
  ((t.evictIdle p now).2.evictOldest p).2

theorem create_eq (t : SessionTable) (p : SessionPolicy) (now : Nat) :
    t.create p now none =
      if p.maxSessions ≤ (t.searched p now).size then
        (.error (.resourceExhausted
          s!"session table full ({(t.searched p now).size}/{p.maxSessions})"), t.searched p now)
      else
        (.ok ⟨((t.searched p now).insert now none).1,
          (t.evictIdle p now).1 ++ ((t.evictIdle p now).2.evictOldest p).1⟩,
          ((t.searched p now).insert now none).2) := rfl

theorem size_searched {t : SessionTable} (h : t.Sound) (p : SessionPolicy) (now : Nat) :
    (t.searched p now).size +
      ((t.evictIdle p now).1 ++ ((t.evictIdle p now).2.evictOldest p).1).length = t.size := by
  have hidle := evicted_evictIdle h p now
  have hold := (evicted_evictOldest hidle.sound p).size
  have hsize := hidle.size
  unfold searched
  rw [List.length_append]
  omega

/-- A creation that fails evicts nobody. -/
theorem create_error {t t' : SessionTable} {p : SessionPolicy} {now : Nat} {e : Error}
    (h : t.Sound) (hmax : t.size ≤ p.maxSessions) (hc : t.create p now none = (.error e, t')) :
    t' = t ∧ ∃ why, e = .resourceExhausted why := by
  have hsize := size_searched h p now
  rw [create_eq] at hc
  split at hc
  case isTrue hfull =>
    cases hc
    refine ⟨?_, _, rfl⟩
    -- a table that is full after the evictions was no larger before them
    rw [List.length_append] at hsize
    have hidle : (t.evictIdle p now).1 = [] := List.eq_nil_of_length_eq_zero (by omega)
    have hold : ((t.evictIdle p now).2.evictOldest p).1 = [] :=
      List.eq_nil_of_length_eq_zero (by omega)
    have hevicted := evicted_evictIdle h p now
    calc t.searched p now
        = (t.evictIdle p now).2 := (evicted_evictOldest hevicted.sound p).nothing hold
      _ = t := hevicted.nothing hidle
  case isFalse => cases hc

/-- The search of a creation for an id ends: there is none, as the table is full, or an id is free. -/
def SearchEnds (t : SessionTable) (p : SessionPolicy) (now : Nat) : Prop :=
  p.maxSessions ≤ (t.searched p now).size ∨
    ∃ id, InRange id ∧ (t.searched p now).contains id = false

theorem sound_insert {t : SessionTable} (h : t.Sound) (now : Nat) :
    (t.insert now none).2.Sound := by
  refine ⟨?_, inRange_succId _⟩
  intro k s hs
  unfold insert at hs
  dsimp only at hs
  rw [Keyed.get?_set] at hs
  split at hs
  case isTrue hk =>
    cases hs
    exact hk.symm
  case isFalse => exact h.kept k s hs

theorem create_ok {t t' : SessionTable} {p : SessionPolicy} {now : Nat} {c : Created}
    (h : t.Sound) (hs : t.SearchEnds p now) (hc : t.create p now none = (.ok c, t')) :
    t'.size + c.evicted.length = t.size + 1 ∧ t'.size ≤ p.maxSessions ∧ t'.Sound := by
  have hsize := size_searched h p now
  have hsound : (t.searched p now).Sound :=
    (evicted_evictOldest (evicted_evictIdle h p now).sound p).sound
  rw [create_eq] at hc
  split at hc
  case isTrue => cases hc
  case isFalse hroom =>
    cases hc
    obtain hfull | hfree := hs
    · exact absurd hfull hroom
    · -- the id is not in use, so the new session takes nobody's place
      have hnew := searchId_free hsound.next hfree
      have hone : ((t.searched p now).insert now none).2.size = (t.searched p now).size + 1 := by
        apply Keyed.size_set_of_not_mem
        intro hk
        rw [Keyed.mem_keys_iff] at hk
        exact absurd (hnew.symm.trans hk) Bool.false_ne_true
      refine ⟨?_, ?_, sound_insert hsound now⟩
      · dsimp only
        omega
      · omega

theorem close_ok {t t' : SessionTable} {id : SessionId} {s : Session} (h : t.Sound)
    (hc : t.close id = .ok (s, t')) : t'.size + 1 = t.size ∧ t'.Sound := by
  unfold close get at hc
  cases hg : t.sessions.get? id with
  | none =>
    rw [hg] at hc
    cases hc
  | some u =>
    rw [hg] at hc
    cases hc
    refine ⟨Keyed.size_erase_of_mem (Keyed.mem_keys_of_get? hg), ?_, h.next⟩
    intro k v hv
    exact h.kept k v (Keyed.get?_of_erase hv)

/-- The same sessions are open in both tables. -/
structure SameIds (t t' : SessionTable) : Prop where
  size : t'.size = t.size
  sound : t.Sound → t'.Sound

theorem sameIds_refl (t : SessionTable) : SameIds t t := ⟨rfl, id⟩

theorem SameIds.trans {t t' t'' : SessionTable} (h : SameIds t t') (h' : SameIds t' t'') :
    SameIds t t'' :=
  ⟨h'.size.trans h.size, fun hs => h'.sound (h.sound hs)⟩

theorem sameIds_update {t t' : SessionTable} {id : SessionId} {f : Session → Session}
    (hf : ∀ s, (f s).id = s.id) (h : t.update id f = .ok t') : SameIds t t' := by
  unfold update get at h
  cases hg : t.sessions.get? id with
  | none =>
    rw [hg] at h
    cases h
  | some s =>
    rw [hg] at h
    cases h
    have hmem : id ∈ t.sessions.keys := Keyed.mem_keys_of_get? hg
    constructor
    · -- the id was there before, so the keys are the same
      apply Keyed.size_eq_of_mem_iff
      intro k
      rw [Keyed.mem_keys_set]
      constructor
      · rintro (rfl | hk)
        · exact hmem
        · exact hk
      · exact Or.inr
    · intro hs
      refine ⟨?_, hs.next⟩
      intro k v hv
      dsimp only at hv
      rw [Keyed.get?_set] at hv
      split at hv
      case isTrue hk =>
        -- the changed session keeps its id
        cases hv
        rw [hf, hk]
        exact hs.kept id s hg
      case isFalse => exact hs.kept k v hv

theorem sameIds_beginTurn {t t' : SessionTable} {id : SessionId} {now : Nat} {prompt : String}
    {s : Session} (h : t.beginTurn id now prompt = .ok (s, t')) : SameIds t t' := by
  unfold beginTurn at h
  cases hu : t.update id (·.begin now prompt) with
  | error e =>
    rw [hu] at h
    cases h
  | ok u =>
    rw [hu] at h
    have heq : u = t' := by
      change (u.get id).bind (fun s => .ok (s, u)) = _ at h
      cases hg : u.get id with
      | error e =>
        rw [hg] at h
        cases h
      | ok s =>
        rw [hg] at h
        cases h
        rfl
    rw [← heq]
    have hid (s : Session) : (s.begin now prompt).id = s.id := rfl
    exact sameIds_update hid hu

theorem sameIds_finishTurn {t t' : SessionTable} {id : SessionId} {now : Nat}
    {reply : Option String} {nPast : Nat} (h : t.finishTurn id now reply nPast = .ok t') :
    SameIds t t' := by
  refine sameIds_update (fun s => ?_) h
  cases reply with
  | none => rfl
  | some text => rfl

end ChatInference.SessionTable
