import ChatInference.Proofs.Session.Eviction

/-!
Which ids are in use, and which is given next. Nothing but a creation puts an id to use, and nothing but a
creation or a clearing moves the next one; a creation gives the next one as long as it is free.
-/

namespace ChatInference.SessionTable

variable {t t' t'' : SessionTable} {k : SessionId}

theorem contains_iff : t.contains k = true ↔ ∃ s, t.sessions.get? k = some s :=
  Option.isSome_iff_exists

/-- No id is in use that was not, and ids go on from where they were. -/
structure Within (t t' : SessionTable) : Prop where
  nextId : t'.nextId = t.nextId
  used : ∀ k, t'.contains k = true → t.contains k = true

theorem within_refl (t : SessionTable) : Within t t := ⟨rfl, fun _ => id⟩

theorem Within.trans (h : Within t t') (h' : Within t' t'') : Within t t'' :=
  ⟨h'.nextId.trans h.nextId, fun k hk => h.used k (h'.used k hk)⟩

theorem within_removeAll (t : SessionTable) (ids : List SessionId) : Within t (t.removeAll ids) := by
  refine ⟨rfl, fun k hk => ?_⟩
  obtain ⟨s, hs⟩ := contains_iff.1 hk
  exact contains_iff.2 ⟨s, get?_of_removeAll hs⟩

theorem within_evictIdle (t : SessionTable) (p : SessionPolicy) (now : Nat) :
    Within t (t.evictIdle p now).2 := by
  rw [evictIdle_table]
  exact within_removeAll t _

theorem within_searched (t : SessionTable) (p : SessionPolicy) (now : Nat) :
    Within t (t.searched p now) := by
  rw [searched_eq]
  exact within_removeAll t _

/-- A session is changed where it is open. -/
theorem update_eq {f : Session → Session} (h : t.update k f = .ok t') :
    ∃ s, t.sessions.get? k = some s ∧ t' = { t with sessions := t.sessions.set k (f s) } := by
  unfold update get at h
  cases hg : t.sessions.get? k with
  | none =>
    rw [hg] at h
    cases h
  | some s =>
    rw [hg] at h
    cases h
    exact ⟨s, rfl, rfl⟩

/-- A session is closed where it is open. -/
theorem close_eq {s : Session} (h : t.close k = .ok (s, t')) :
    t.sessions.get? k = some s ∧ t' = { t with sessions := t.sessions.erase k } := by
  unfold close get at h
  cases hg : t.sessions.get? k with
  | none =>
    rw [hg] at h
    cases h
  | some u =>
    rw [hg] at h
    cases h
    exact ⟨rfl, rfl⟩

/-- What a turn begins with is a change of its session. -/
theorem update_of_beginTurn {now : Nat} {prompt : String} {s : Session}
    (h : t.beginTurn k now prompt = .ok (s, t')) : t.update k (·.begin now prompt) = .ok t' := by
  unfold beginTurn at h
  cases hu : t.update k (·.begin now prompt) with
  | error e =>
    rw [hu] at h
    cases h
  | ok u =>
    rw [hu] at h
    -- the session is read back from the table that the change has left
    change (u.get k).bind (fun s => .ok (s, u)) = _ at h
    cases hg : u.get k with
    | error e =>
      rw [hg] at h
      cases h
    | ok s =>
      rw [hg] at h
      cases h
      rfl

theorem get?_update {f : Session → Session} (h : t.update k f = .ok t') (l : SessionId) :
    t'.sessions.get? l = if l = k then (t.sessions.get? k).map f else t.sessions.get? l := by
  obtain ⟨s, hs, rfl⟩ := update_eq h
  rw [hs]
  exact Keyed.get?_set t.sessions k (f s) l

theorem get?_close {s : Session} (h : t.close k = .ok (s, t')) (l : SessionId) :
    t'.sessions.get? l = if l = k then none else t.sessions.get? l := by
  obtain ⟨-, rfl⟩ := close_eq h
  exact Keyed.get?_erase _ _ _

theorem within_close {s : Session} (h : t.close k = .ok (s, t')) : Within t t' := by
  obtain ⟨-, rfl⟩ := close_eq h
  refine ⟨rfl, fun l hl => ?_⟩
  obtain ⟨v, hv⟩ := contains_iff.1 hl
  exact contains_iff.2 ⟨v, Keyed.get?_of_erase hv⟩

/-- A session that is changed was open, and stays where it is. -/
theorem update_ok {f : Session → Session} (h : t.update k f = .ok t') :
    t.contains k = true ∧ Within t t' := by
  have hget := get?_update h
  obtain ⟨s, hs, rfl⟩ := update_eq h
  have hin : t.contains k = true := contains_iff.2 ⟨s, hs⟩
  refine ⟨hin, rfl, fun l hl => ?_⟩
  obtain ⟨v, hv⟩ := contains_iff.1 hl
  rw [hget l] at hv
  split at hv
  case isTrue heq => rwa [heq]
  case isFalse => exact contains_iff.2 ⟨v, hv⟩

/-- A creation that succeeds puts one id to use, the next one if that is free. -/
theorem create_numbered {p : SessionPolicy} {now : Nat} {c : Created}
    (h : t.create p now none = (.ok c, t')) :
    (∀ k, t'.contains k = true → k = c.id ∨ t.contains k = true) ∧
      (t.contains t.nextId = false → c.id = t.nextId ∧ t'.nextId = succId t.nextId) := by
  have hwithin := within_searched t p now
  rw [create_eq] at h
  split at h
  case isTrue => cases h
  case isFalse =>
    cases h
    refine ⟨fun k hk => ?_, fun hfree => ?_⟩
    · by_cases heq : k = ((t.searched p now).insert now none).1
      · exact .inl heq
      · right
        apply hwithin.used
        obtain ⟨s, hs⟩ := contains_iff.1 hk
        rw [get?_insert_of_ne heq] at hs
        exact contains_iff.2 ⟨s, hs⟩
    · -- the search stops where it starts
      have hfree' : (t.searched p now).contains t.nextId = false := by
        apply Bool.eq_false_iff.2
        intro hin
        exact Bool.false_ne_true (hfree.symm.trans (hwithin.used _ hin))
      have hsearch (n : Nat) : (t.searched p now).searchId n t.nextId = t.nextId := by
        cases n with
        | zero => rfl
        | succ n => rw [searchId, hfree', if_neg Bool.false_ne_true]
      unfold insert
      dsimp only
      rw [hwithin.nextId, hsearch]
      exact ⟨rfl, rfl⟩

/-- A creation starts one session at the beginning of its sequence, leaves those that stay alone, and reports
those that go. -/
theorem create_get? {p : SessionPolicy} {now : Nat} {c : Created}
    (h : t.create p now none = (.ok c, t')) :
    (∀ k s, t'.sessions.get? k = some s →
        k = c.id ∧ s.nPast = 0 ∨ k ≠ c.id ∧ t.sessions.get? k = some s) ∧
      (∀ k, t.contains k = true → t'.contains k = true ∨ k ∈ c.evicted) ∧
      t'.contains c.id = true := by
  rw [create_eq] at h
  split at h
  case isTrue => cases h
  case isFalse =>
    cases h
    have hself (t : SessionTable) : (t.insert now none).2.sessions.get? (t.insert now none).1 =
        some { id := (t.insert now none).1, createdAt := now, lastActivity := now } :=
      (Keyed.get?_set _ _ _ _).trans (if_pos rfl)
    refine ⟨fun k s hs => ?_, fun k hk => ?_, contains_iff.2 ⟨_, hself _⟩⟩
    · by_cases heq : k = ((t.searched p now).insert now none).1
      · subst heq
        rw [hself] at hs
        cases hs
        exact .inl ⟨rfl, rfl⟩
      · rw [get?_insert_of_ne heq, searched_eq] at hs
        exact .inr ⟨heq, get?_of_removeAll hs⟩
    · obtain ⟨s, hs⟩ := contains_iff.1 hk
      by_cases hgone : k ∈ t.evictedFor p now
      · exact .inr hgone
      · left
        apply contains_iff.2
        by_cases heq : k = ((t.searched p now).insert now none).1
        · exact ⟨_, heq ▸ hself _⟩
        · refine ⟨s, ?_⟩
          rw [get?_insert_of_ne heq, searched_eq, get?_removeAll, if_neg hgone]
          exact hs

section

variable {p : SessionPolicy} {now : Nat} {requested : Option SessionId} {e : Error}

/-- A creation that fails may have evicted, and no more. -/
theorem table_of_create_error (h : t.create p now requested = (.error e, t')) :
    t' = t ∨ t' = t.searched p now := by
  rcases t.create_cases p now requested with ⟨-, e', he⟩ | ⟨-, ⟨-, e', he⟩ | ⟨-, hok⟩⟩
  · exact .inl (congrArg Prod.snd (h.symm.trans he))
  · exact .inr (congrArg Prod.snd (h.symm.trans he))
  · cases congrArg Prod.fst (hok.symm.trans h)

theorem create_error_within (h : t.create p now requested = (.error e, t')) : Within t t' := by
  rcases table_of_create_error h with rfl | rfl
  · exact within_refl t'
  · exact within_searched t p now

end

end ChatInference.SessionTable
