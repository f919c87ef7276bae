import ChatInference.Proofs.Session.Precedence

/-!
Ids are not given twice. The next id is above all that were given since the last clearing, as long as the
last id there is has not been given; after that the search goes on from one and passes those in use. It ends
because there are more ids than sessions.
-/

namespace ChatInference.SessionTable

/-- The search, without a bound on its steps: it passes ids in use, and stops at one that is not. -/
inductive Searching (t : SessionTable) : SessionId → SessionId → Prop where
  | stop {id : SessionId} (h : t.contains id = false) : Searching t id id
  | pass {id found : SessionId} (h : t.contains id = true) (rest : Searching t (succId id) found) :
    Searching t id found

variable {p : SessionPolicy} {t t' : SessionTable} {now : Nat}

theorem Searching.not_contains {id found : SessionId} (h : Searching t id found) :
    t.contains found = false := by
  induction h with
  | stop h => exact h
  | pass _ _ ih => exact ih

theorem Searching.inRange {id found : SessionId} (hid : InRange id) (h : Searching t id found) :
    InRange found := by
  induction h with
  | stop _ => exact hid
  | pass _ _ ih => exact ih (inRange_succId _)

/-- A search that came to an id not in use within its bound needs no bound. -/
theorem searching_searchId (n : Nat) (id : SessionId) (h : t.contains (t.searchId n id) = false) :
    Searching t id (t.searchId n id) := by
  -- over the steps the search may still take
  induction n generalizing id with
  | zero => exact .stop h
  | succ n ih =>
    rw [searchId] at h ⊢
    split at h
    case isTrue hused =>
      rw [if_pos hused]
      exact .pass hused (ih (succId id) h)
    case isFalse hfree =>
      rw [if_neg hfree]
      exact .stop h

/-- With room in the table, and no room for as many sessions as there are ids, the search ends. -/
theorem searching_of_room (h : t.Sound) (hroom : t.size < p.maxSessions)
    (hmax : p.maxSessions ≤ idLimit - 1) : Searching t t.nextId (t.insert now none).1 := by
  obtain ⟨j, -, hj⟩ := exists_not_contains t t.nextId (Nat.lt_of_lt_of_le hroom hmax)
  have hid : InRange (idFrom t.nextId j) := by
    unfold InRange idFrom
    rw [idLimit_eq]
    omega
  exact searching_searchId t.size t.nextId (searchId_free h.next ⟨_, hid, hj⟩)

theorem lt_succId {id : SessionId} (h : id < idLimit - 1) : id < succId id := by
  unfold SessionId at *
  rw [succId_eq]
  rw [idLimit_eq] at h
  omega

/-- A requested id moves the next one past itself, as far as ids go. -/
theorem nextId_requested {id : SessionId} {c : Created}
    (hc : t.create p now (some id) = (.ok c, t')) :
    c.id = id ∧ t'.nextId = max t.nextId (min (id + 1) (idLimit - 1)) := by
  obtain ⟨-, -, rfl, rfl⟩ := create_succeeds hc
  have hnext : (t.searched p now).nextId = t.nextId := (within_searched t p now).nextId
  rw [← hnext]
  exact ⟨rfl, rfl⟩

/-- A creation puts one id to use. -/
theorem contains_of_create {requested : Option SessionId} {c : Created} {id : SessionId}
    (hc : t.create p now requested = (.ok c, t')) (hid : t'.contains id = true) :
    id = c.id ∨ t.contains id = true := by
  obtain ⟨-, -, rfl, rfl⟩ := create_succeeds hc
  obtain ⟨s, hs⟩ := contains_iff.1 hid
  rw [get?_insert] at hs
  split at hs
  case isTrue hnew => exact .inl hnew
  case isFalse => exact .inr (contains_iff.2 ⟨s, get?_of_searched hs⟩)

theorem within_orKeep_update (t : SessionTable) (id : SessionId) (f : Session → Session) :
    Within t (t.orKeep (t.update id f)) := by
  cases hu : t.update id f with
  | error e => exact within_refl t
  | ok t' => exact (update_ok hu).2

/-- A table, and the ids that were given to sessions since it was last cleared, the latest first. -/
structure Issuance where
  table : SessionTable := {}
  given : List SessionId := []

namespace Issuance

def noted (i : Issuance) : Except Error Created → List SessionId
  | .ok c => c.id :: i.given
  | .error _ => i.given

def givenBy (i : Issuance) (p : SessionPolicy) : Call → List SessionId
  | .create now requested => i.noted (i.table.create p now requested).1
  | .clear => []
  | _ => i.given

def after (p : SessionPolicy) (i : Issuance) (c : Call) : Issuance :=
  ⟨i.table.after p c, i.givenBy p c⟩

def run (p : SessionPolicy) (calls : List Call) : Issuance := calls.foldl (after p) {}

/-- Every id in use was given, and the next one is above them all, unless the last was given. -/
structure Ascending (p : SessionPolicy) (i : Issuance) : Prop where
  within : WithinLimits p i.table
  used : ∀ id, i.table.contains id = true → id ∈ i.given
  above : (∀ id ∈ i.given, id < idLimit - 1) → ∀ id ∈ i.given, id < i.table.nextId

variable {i : Issuance}

theorem ascending_empty (p : SessionPolicy) : Ascending p {} := by
  refine ⟨withinLimits_empty p, fun id hid => ?_, fun _ id hid => nomatch hid⟩
  cases hid

/-- A call that gives no id, and puts none to use. -/
theorem Ascending.of_within (h : Ascending p i) {c : Call} (hgiven : i.givenBy p c = i.given)
    (hwithin : Within i.table (i.table.after p c)) : Ascending p (i.after p c) := by
  refine ⟨withinLimits_after h.within c, ?_, ?_⟩
  · intro id hid
    change id ∈ i.givenBy p c
    rw [hgiven]
    exact h.used id (hwithin.used id hid)
  · change (∀ id ∈ i.givenBy p c, id < idLimit - 1) →
      ∀ id ∈ i.givenBy p c, id < (i.table.after p c).nextId
    rw [hgiven, hwithin.nextId]
    exact h.above

/-- While the last id has not been given, the next one is free. -/
theorem Ascending.next_free (h : Ascending p i) (hlow : ∀ id ∈ i.given, id < idLimit - 1) :
    i.table.contains i.table.nextId = false := by
  apply Bool.eq_false_iff.2
  intro hused
  exact absurd (h.above hlow _ (h.used _ hused)) (Nat.lt_irrefl _)

/-- So it is the one that a creation gives. -/
theorem Ascending.id_eq_next (h : Ascending p i) (hlow : ∀ id ∈ i.given, id < idLimit - 1)
    {c : Created} (hc : i.table.create p now none = (.ok c, t')) :
    c.id = i.table.nextId ∧ t'.nextId = succId i.table.nextId :=
  (create_numbered hc).2 (h.next_free hlow)

/-- A creation moves the next id past the one it gives, and never back. -/
theorem Ascending.next_past (h : Ascending p i) (hlow : ∀ id ∈ i.given, id < idLimit - 1)
    {requested : Option SessionId} {c : Created}
    (hc : i.table.create p now requested = (.ok c, t')) (hnew : c.id < idLimit - 1) :
    c.id < t'.nextId ∧ i.table.nextId ≤ t'.nextId := by
  cases requested with
  | none =>
    obtain ⟨hid, hnext⟩ := h.id_eq_next hlow hc
    rw [hid] at hnew ⊢
    have hlt : i.table.nextId < t'.nextId := by
      rw [hnext]
      exact lt_succId hnew
    exact ⟨hlt, Nat.le_of_lt hlt⟩
  | some id =>
    obtain ⟨rfl, hnext⟩ := nextId_requested hc
    rw [hnext]
    have hpast : c.id < min (c.id + 1) (idLimit - 1) := Nat.lt_min.2 ⟨Nat.lt_succ_self _, hnew⟩
    exact ⟨Nat.lt_of_lt_of_le hpast (Nat.le_max_right _ _), Nat.le_max_left _ _⟩

theorem ascending_create (h : Ascending p i) (now : Nat) (requested : Option SessionId) :
    Ascending p (i.after p (.create now requested)) := by
  have hwithin : WithinLimits p (i.table.create p now requested).2 :=
    withinLimits_create h.within now requested
  change Ascending p
    ⟨(i.table.create p now requested).2, i.noted (i.table.create p now requested).1⟩
  rcases hc : i.table.create p now requested with ⟨e | c, t'⟩
  · -- a creation that fails gives no id
    have hsame := create_error_within hc
    rw [hc] at hwithin
    refine ⟨hwithin, fun id hid => h.used id (hsame.used id hid), ?_⟩
    change (∀ id ∈ i.given, id < idLimit - 1) → ∀ id ∈ i.given, id < t'.nextId
    rw [hsame.nextId]
    exact h.above
  · rw [hc] at hwithin
    refine ⟨hwithin, fun id hid => ?_, fun hlow => ?_⟩
    · rcases contains_of_create hc hid with heq | hused
      · exact List.mem_cons.2 (.inl heq)
      · exact List.mem_cons_of_mem _ (h.used id hused)
    · have hold : ∀ id ∈ i.given, id < idLimit - 1 :=
        fun id hid => hlow id (List.mem_cons_of_mem _ hid)
      obtain ⟨hpast, hmoved⟩ := h.next_past hold hc (hlow c.id List.mem_cons_self)
      intro id hid
      rcases List.mem_cons.1 hid with rfl | hgiven
      · exact hpast
      · exact Nat.lt_of_lt_of_le (h.above hold id hgiven) hmoved

theorem ascending_after (h : Ascending p i) (c : Call) : Ascending p (i.after p c) := by
  cases c with
  | create now requested => exact ascending_create h now requested
  | close id =>
    apply h.of_within rfl
    change Within i.table (i.table.orKeep (Prod.snd <$> i.table.close id))
    cases hc : i.table.close id with
    | error e => exact within_refl _
    | ok r => exact within_close hc
  | evictIdle now => exact h.of_within rfl (within_evictIdle i.table p now)
  | beginTurn id now prompt =>
    apply h.of_within rfl
    change Within i.table (i.table.orKeep (Prod.snd <$> i.table.beginTurn id now prompt))
    rw [snd_beginTurn]
    exact within_orKeep_update _ _ _
  | finishTurn id now reply nPast => exact h.of_within rfl (within_orKeep_update _ _ _)
  | clear =>
    refine ⟨withinLimits_empty p, fun id hid => ?_, fun _ id hid => nomatch hid⟩
    cases hid

theorem ascending_run (p : SessionPolicy) (calls : List Call) : Ascending p (run p calls) := by
  have hfold : ∀ i, Ascending p i → Ascending p (calls.foldl (after p) i) := by
    -- over the calls, from whatever table the ones before have left
    induction calls with
    | nil => exact fun i h => h
    | cons c calls ih => exact fun i h => ih (i.after p c) (ascending_after h c)
  exact hfold {} (ascending_empty p)

theorem table_run (p : SessionPolicy) (calls : List Call) :
    (run p calls).table = afterAll p {} calls := by
  have hfold : ∀ i, (calls.foldl (after p) i).table = i.table.afterAll p calls := by
    induction calls with
    | nil => exact fun i => rfl
    | cons c calls ih => exact fun i => ih (i.after p c)
  exact hfold {}

/-- After any calls on a table that may not hold a session for every id, a creation for no id in
particular that finds room searches from the next id on, and its search ends, at an id that is at least
one and not in use; who had it in the table has been evicted. As long as the last id there is has not
been given since the last clearing, it is greater than every id given since then. -/
theorem created_ids_are_fresh (hmax : p.maxSessions ≤ idLimit - 1) (calls : List Call) (now : Nat) :
    let i := run p calls
    i.table = afterAll p {} calls ∧ (∀ id, i.table.contains id = true → id ∈ i.given) ∧
    ((∃ e, (i.table.create p now none).1 = .error e) ↔
      p.maxSessions ≤ (i.table.searched p now).size) ∧
    ∀ c t', i.table.create p now none = (.ok c, t') →
      InRange c.id ∧ Searching (i.table.searched p now) i.table.nextId c.id ∧
      (i.table.searched p now).contains c.id = false ∧
      (i.table.contains c.id = true → c.id ∈ c.evicted) ∧
      ((∀ id ∈ i.given, id < idLimit - 1) → ∀ id ∈ i.given, id < c.id) := by
  intro i
  have h : Ascending p i := ascending_run p calls
  refine ⟨table_run p calls, h.used, ?_, fun c t' hc => ?_⟩
  · rw [create_eq]
    by_cases hfull : p.maxSessions ≤ (i.table.searched p now).size
    · rw [if_pos hfull]
      exact iff_of_true ⟨_, rfl⟩ hfull
    · rw [if_neg hfull]
      exact iff_of_false nofun hfull
  · obtain ⟨-, hroom, hmade, -⟩ := create_succeeds hc
    have hid : c.id = ((i.table.searched p now).insert now none).1 := congrArg Created.id hmade
    have hnext : (i.table.searched p now).nextId = i.table.nextId :=
      (within_searched i.table p now).nextId
    have hsound := (h.within.searched now).sound
    have hends : Searching (i.table.searched p now) i.table.nextId c.id := by
      rw [hid, ← hnext]
      exact searching_of_room hsound hroom hmax
    refine ⟨hends.inRange h.within.sound.next, hends, hends.not_contains, ?_, ?_⟩
    · intro hused
      rw [hmade] at hused ⊢
      by_contra hkept
      have hstays := contains_searched hused hkept
      rw [← hid, hends.not_contains] at hstays
      cases hstays
    · intro hlow id hgiven
      rw [(h.id_eq_next hlow hc).1]
      exact h.above hlow id hgiven

/-- A session that was asked for by its id and closed again: its id is passed. -/
theorem created_ids_are_fresh_closed :
    let p : SessionPolicy := ⟨2, 1000, true⟩
    let i := run p [.create 0 none, .create 0 (some 7), .close 7]
    p.maxSessions ≤ idLimit - 1 ∧ i.given = [7, 1] ∧
      ∃ c t', i.table.create p 10 none = (.ok c, t') ∧ c.evicted = [] ∧
        ∀ id ∈ i.given, id < c.id := by
  intro p i
  have hmax : p.maxSessions ≤ idLimit - 1 := by decide
  have hgiven : i.given = [7, 1] := by decide +kernel
  have hmade : (i.table.create p 10 none).1 = .ok ⟨8, []⟩ := by decide +kernel
  have hc : i.table.create p 10 none = (.ok ⟨8, []⟩, (i.table.create p 10 none).2) := by rw [← hmade]
  obtain ⟨-, -, -, hids⟩ :=
    created_ids_are_fresh hmax [.create 0 none, .create 0 (some 7), .close 7] 10
  obtain ⟨-, -, -, -, hfresh⟩ := hids _ _ hc
  have hlow : ∀ id ∈ i.given, id < idLimit - 1 := by
    rw [hgiven]
    decide
  exact ⟨hmax, hgiven, _, _, hc, rfl, hfresh hlow⟩

end Issuance

end ChatInference.SessionTable
