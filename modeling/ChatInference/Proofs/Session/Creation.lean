import ChatInference.Proofs.Session.Eviction

/-!
The table over whole runs of calls. It never holds more sessions than it may, so a creation that is
turned away has changed nothing: it fails where the id it asks for is in use, and where the table is full
of sessions that may not be evicted.
-/

namespace ChatInference.SessionTable

/-- A call on the table, at its time. -/
inductive Call where
  | create (now : Nat) (requested : Option SessionId)
  | close (id : SessionId)
  | evictIdle (now : Nat)
  | beginTurn (id : SessionId) (now : Nat) (prompt : String)
  | finishTurn (id : SessionId) (now : Nat) (reply : Option String) (nPast : Nat)
  | clear

/-- A call that fails leaves the table as it is. -/
def orKeep (t : SessionTable) : Except Error SessionTable → SessionTable
  | .ok t' => t'
  | .error _ => t

def after (p : SessionPolicy) (t : SessionTable) : Call → SessionTable
  | .create now requested => (t.create p now requested).2
  | .close id => t.orKeep (Prod.snd <$> t.close id)
  | .evictIdle now => (t.evictIdle p now).2
  | .beginTurn id now prompt => t.orKeep (Prod.snd <$> t.beginTurn id now prompt)
  | .finishTurn id now reply nPast => t.orKeep (t.finishTurn id now reply nPast)
  | .clear => t.clear

/-- The table after calls, one after the other. -/
def afterAll (p : SessionPolicy) (t : SessionTable) (calls : List Call) : SessionTable :=
  calls.foldl (after p) t

/-- What holds after every call. -/
structure WithinLimits (p : SessionPolicy) (t : SessionTable) : Prop where
  sound : t.Sound
  size : t.size ≤ p.maxSessions

variable {p : SessionPolicy} {t t' : SessionTable}

theorem withinLimits_empty (p : SessionPolicy) : WithinLimits p {} :=
  ⟨sound_empty, Nat.zero_le _⟩

theorem WithinLimits.of_evicted (h : WithinLimits p t) {r : List SessionId × SessionTable}
    (he : Evicted t r) : WithinLimits p r.2 := by
  have hsize := he.size
  have hle := h.size
  exact ⟨he.sound, by omega⟩

theorem WithinLimits.of_sameIds (h : WithinLimits p t) (hs : SameIds t t') : WithinLimits p t' := by
  refine ⟨hs.sound h.sound, ?_⟩
  rw [hs.size]
  exact h.size

theorem WithinLimits.searched (h : WithinLimits p t) (now : Nat) :
    WithinLimits p (t.searched p now) :=
  (h.of_evicted (evicted_evictIdle h.sound p now)).of_evicted
    (evicted_evictOldest (evicted_evictIdle h.sound p now).sound p)

theorem withinLimits_create (h : WithinLimits p t) (now : Nat) (requested : Option SessionId) :
    WithinLimits p (t.create p now requested).2 := by
  have hs := h.searched now
  rcases t.create_cases p now requested with ⟨-, e, he⟩ | ⟨-, ⟨-, e, he⟩ | ⟨hroom, hok⟩⟩
  · rw [he]
    exact h
  · rw [he]
    exact hs
  · rw [hok]
    -- there was room for one more
    have hone := size_insert_le (t.searched p now) now requested
    have hsize : ((t.searched p now).insert now requested).2.size ≤ p.maxSessions := by omega
    exact ⟨sound_insert_requested hs.sound now requested, hsize⟩

theorem withinLimits_close (h : WithinLimits p t) (id : SessionId) :
    WithinLimits p (t.after p (.close id)) := by
  change WithinLimits p (t.orKeep (Prod.snd <$> t.close id))
  cases hc : t.close id with
  | error e => exact h
  | ok r =>
    obtain ⟨hsize, hsound⟩ := close_ok h.sound hc
    have hle := h.size
    have hsize' : r.2.size ≤ p.maxSessions := by omega
    exact ⟨hsound, hsize'⟩

theorem withinLimits_beginTurn (h : WithinLimits p t) (id : SessionId) (now : Nat)
    (prompt : String) : WithinLimits p (t.after p (.beginTurn id now prompt)) := by
  change WithinLimits p (t.orKeep (Prod.snd <$> t.beginTurn id now prompt))
  cases hb : t.beginTurn id now prompt with
  | error e => exact h
  | ok r => exact h.of_sameIds (sameIds_beginTurn hb)

theorem withinLimits_finishTurn (h : WithinLimits p t) (id : SessionId) (now : Nat)
    (reply : Option String) (nPast : Nat) :
    WithinLimits p (t.after p (.finishTurn id now reply nPast)) := by
  change WithinLimits p (t.orKeep (t.finishTurn id now reply nPast))
  cases hf : t.finishTurn id now reply nPast with
  | error e => exact h
  | ok t' => exact h.of_sameIds (sameIds_finishTurn hf)

theorem withinLimits_after (h : WithinLimits p t) (c : Call) : WithinLimits p (t.after p c) := by
  cases c with
  | create now requested => exact withinLimits_create h now requested
  | close id => exact withinLimits_close h id
  | evictIdle now => exact h.of_evicted (evicted_evictIdle h.sound p now)
  | beginTurn id now prompt => exact withinLimits_beginTurn h id now prompt
  | finishTurn id now reply nPast => exact withinLimits_finishTurn h id now reply nPast
  | clear => exact withinLimits_empty p

theorem withinLimits_afterAll (h : WithinLimits p t) (calls : List Call) :
    WithinLimits p (t.afterAll p calls) := by
  -- over the calls, each from the table that the one before left
  induction calls generalizing t with
  | nil => exact h
  | cons c calls ih => exact ih (withinLimits_after h c)

/-- In a full table the sweep and the search for the oldest come to nothing exactly where nobody
may be evicted. -/
theorem evictedFor_eq_nil_iff (h : WithinLimits p t) (hfull : t.size = p.maxSessions) (now : Nat) :
    t.evictedFor p now = [] ↔
      p.autoCleanup = false ∨ ∀ id s, t.sessions.get? id = some s → s.state = .running := by
  constructor
  · intro hnil
    by_cases hauto : p.autoCleanup = true
    · right
      obtain ⟨hidle, hold⟩ := List.append_eq_nil_iff.1 hnil
      -- the sweep took nobody, so the table is as full as before
      rw [(evicted_evictIdle h.sound p now).nothing hidle] at hold
      have hmany : (p.autoCleanup && p.maxSessions ≤ t.size) = true := by
        simp only [hauto, Bool.true_and, decide_eq_true_eq]
        omega
      unfold evictOldest at hold
      rw [if_pos hmany] at hold
      -- a full table looks for one session at least, so there was none to find
      have hnobody : oldestFirst t.idlers = [] := by
        rcases List.take_eq_nil_iff.1 hold with hzero | hnil
        · omega
        · exact hnil
      exact fun id s hs => running_of_no_idlers h.sound hnobody hs
    · exact .inl (Bool.eq_false_iff.2 hauto)
  · intro hnobody
    apply List.eq_nil_iff_forall_not_mem.2
    intro id hid
    obtain ⟨hauto, s, hs, hready⟩ := ready_of_mem_evictedFor h.sound hid
    rcases hnobody with hoff | hrunning
    · rw [hoff] at hauto
      cases hauto
    · rw [hrunning id s hs] at hready
      cases hready

/-- There is no room after the evictions exactly where there was none and nobody was evicted. -/
theorem searched_full_iff (h : WithinLimits p t) (now : Nat) :
    p.maxSessions ≤ (t.searched p now).size ↔
      t.size = p.maxSessions ∧ t.evictedFor p now = [] := by
  have hle := h.size
  have hsize : (t.searched p now).size + (t.evictedFor p now).length = t.size :=
    size_searched h.sound p now
  rw [List.eq_nil_iff_length_eq_zero]
  omega

/-- After any calls the table holds no more sessions than it may. A creation, whatever id it asks for,
fails exactly where that id is in use, or where the table is full and nobody may be evicted: evictions
are off, or a turn runs in every session. One that fails leaves the table as it was, its next id with
it; one that succeeds takes out those it reports, and leaves every other session as it was. -/
theorem failed_creation_changes_nothing (p : SessionPolicy) (calls : List Call) :
    let t := afterAll p {} calls
    t.size ≤ p.maxSessions ∧ ∀ now requested,
      ((∃ e, (t.create p now requested).1 = .error e) ↔
        (∃ id, requested = some id ∧ t.contains id = true) ∨
          (t.size = p.maxSessions ∧ (p.autoCleanup = false ∨
            ∀ id s, t.sessions.get? id = some s → s.state = .running))) ∧
      (∀ e t', t.create p now requested = (.error e, t') → t' = t) ∧
      ∀ c t', t.create p now requested = (.ok c, t') → ∀ id, id ≠ c.id →
        t'.sessions.get? id = if id ∈ c.evicted then none else t.sessions.get? id := by
  intro t
  have h : WithinLimits p t := withinLimits_afterAll (withinLimits_empty p) calls
  refine ⟨h.size, fun now requested => ?_⟩
  rcases t.create_cases p now requested with
    ⟨hused, e, he⟩ | ⟨hunused, ⟨hfull, e, he⟩ | ⟨hroom, hok⟩⟩
  · -- the id is in use
    rw [he]
    refine ⟨iff_of_true ⟨e, rfl⟩ (.inl hused), ?_, nofun⟩
    intro e' t' he'
    exact (Prod.mk.inj he').2.symm
  · -- still full after the evictions, so there were none: the table is the one before
    obtain ⟨hsize, hnil⟩ := (searched_full_iff h now).1 hfull
    have hnobody := (evictedFor_eq_nil_iff h hsize now).1 hnil
    rw [he]
    refine ⟨iff_of_true ⟨e, rfl⟩ (.inr ⟨hsize, hnobody⟩), ?_, nofun⟩
    intro e' t' he'
    have ht' : t.searched p now = t' := (Prod.mk.inj he').2
    rw [← ht', searched_eq, hnil, removeAll_nil]
  · -- there is room, at first or by the evictions
    rw [hok]
    refine ⟨iff_of_false nofun ?_, nofun, ?_⟩
    · rintro (hused | ⟨hsize, hnobody⟩)
      · exact hunused hused
      · have hnil := (evictedFor_eq_nil_iff h hsize now).2 hnobody
        have hfull := (searched_full_iff h now).2 ⟨hsize, hnil⟩
        omega
    · intro c t' hc id hid
      obtain ⟨hcreated, rfl⟩ := Prod.mk.inj hc
      obtain rfl := Except.ok.inj hcreated
      rw [get?_insert_of_ne hid, searched_eq, get?_removeAll]

theorem failed_creation_changes_nothing_crowded :
    let p : SessionPolicy := ⟨1, 60000, true⟩
    let t := afterAll p {} [.create 0 none, .beginTurn 1 10 "Hi"]
    ∃ e, t.create p 90000 none = (.error e, t) := by
  intro p t
  have hcalls := (failed_creation_changes_nothing p [.create 0 none, .beginTurn 1 10 "Hi"]).2
  obtain ⟨hfails, hkeeps, -⟩ := hcalls 90000 none
  have hsize : t.size = p.maxSessions := by decide +kernel
  have hstates : ∀ s ∈ t.sessions.values, s.state = .running := by decide +kernel
  have hrunning : ∀ id s, t.sessions.get? id = some s → s.state = .running := by
    intro id s hs
    exact hstates s (Keyed.mem_values_iff.2 ⟨id, hs⟩)
  obtain ⟨e, he⟩ := hfails.2 (.inr ⟨hsize, .inr hrunning⟩)
  have hpair : t.create p 90000 none = (.error e, (t.create p 90000 none).2) := by rw [← he]
  exact ⟨e, hpair.trans (by rw [hkeeps e _ hpair])⟩

end ChatInference.SessionTable
