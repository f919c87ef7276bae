import ChatInference.Proofs.Session.Census
import ChatInference.Service.Turn

/-!
What the parts of the service's calls leave alone. Most of them neither open nor close a session and
neither take nor give back a permit to compute; those that do are told apart here.
-/

namespace ChatInference

/-- How many permits the worker holds. -/
def Worker.permits : Worker → Nat
  | .admitted _ | .running _ _ | .over _ _ => 1
  | .idle | .waiting _ | .uncounted _ _ | .unsent _ _ | .stopped => 0

namespace Service

variable {σ : Type}

/-- The same sessions are open and the same permits out in both states. -/
structure Quiet (s s' : Service σ) : Prop where
  config : s'.config = s.config
  gate : s'.gate = s.gate
  permits : s'.worker.permits = s.worker.permits
  sessions : s.sessions.SameIds s'.sessions

theorem quiet_refl (s : Service σ) : Quiet s s := ⟨rfl, rfl, rfl, SessionTable.sameIds_refl _⟩

theorem Quiet.trans {s s' s'' : Service σ} (h : Quiet s s') (h' : Quiet s' s'') : Quiet s s'' :=
  ⟨h'.config.trans h.config, h'.gate.trans h.gate, h'.permits.trans h.permits,
    h.sessions.trans h'.sessions⟩

theorem quiet_cancelTasksOf (s : Service σ) (id : SessionId) : Quiet s (s.cancelTasksOf id) :=
  ⟨rfl, rfl, rfl, SessionTable.sameIds_refl _⟩

theorem map_queued_ne_slot (r : Except Error TaskId) (ticket : Nat) :
    (Admission.queued · ticket) <$> r ≠ .ok .slot := by
  intro h
  cases r with
  | error e => cases h
  | ok task => cases h

theorem enter_cases (s : Service σ) (now : Nat) (id : SessionId) (prompt : String)
    (o : Overrides) :
    (∃ gate, s.gate.acquire? = some gate ∧
      s.enter now id prompt o = (.ok .slot, { s with gate })) ∨
    (s.gate.acquire? = none ∧ (s.enter now id prompt o).1 ≠ .ok .slot ∧
      Quiet s (s.enter now id prompt o).2) := by
  unfold enter
  cases h : s.gate.acquire? with
  | some gate => exact .inl ⟨gate, rfl, rfl⟩
  | none =>
    right
    exact ⟨rfl, map_queued_ne_slot _ _, ⟨rfl, rfl, rfl, SessionTable.sameIds_refl _⟩⟩

theorem quiet_record (s : Service σ) (now : Nat) (id : SessionId) (reply : Option String)
    (nPast : Nat) : Quiet s (s.record now id reply nPast) := by
  unfold record
  cases h : s.sessions.finishTurn id now reply nPast with
  | error e => exact quiet_refl s
  | ok sessions => exact ⟨rfl, rfl, rfl, SessionTable.sameIds_finishTurn h⟩

variable [InferenceEngine σ]

theorem quiet_clearCache (s : Service σ) (seq : Option SeqId) : Quiet s (s.clearCache seq) :=
  ⟨rfl, rfl, rfl, SessionTable.sameIds_refl _⟩

theorem quiet_retireOne (s : Service σ) (id : SessionId) : Quiet s (s.retireOne id) :=
  (quiet_cancelTasksOf s id).trans (quiet_clearCache _ _)

theorem quiet_startTurn (s : Service σ) (now : Nat) (id : SessionId) (prompt : String)
    (o : Overrides) : Quiet s (s.startTurn now id prompt o).2 := by
  unfold startTurn
  cases s.model.state.usable with
  | error e => exact quiet_refl s
  | ok model =>
    dsimp only
    cases hb : s.sessions.beginTurn id now prompt with
    | error e => exact quiet_refl s
    | ok r => exact ⟨rfl, rfl, rfl, SessionTable.sameIds_beginTurn hb⟩

theorem quiet_endTurn (s : Service σ) (now : Nat) (t : Turn) : Quiet s (s.endTurn now t).2 := by
  have hengine (e : σ) : Quiet s { s with model := { s.model with engine := e } } :=
    ⟨rfl, rfl, rfl, SessionTable.sameIds_refl _⟩
  unfold endTurn
  dsimp only
  split
  · exact (hengine _).trans (quiet_record _ _ _ _ _)
  · exact (hengine _).trans (quiet_record _ _ _ _ _)

/-- The worker takes a permit when it is let through, and gives it back after its turn. -/
theorem workerStep_cases (s : Service σ) (now : Nat) :
    Quiet s (s.workerStep now) ∨
    (∃ gate t, s.gate.acquire? = some gate ∧ s.worker.permits = 0 ∧
      s.workerStep now = { s with gate, worker := .admitted t }) ∨
    (∃ t r, s.worker.permits = 1 ∧
      s.workerStep now = { s.releaseSlot with worker := .uncounted t r }) := by
  -- by the place the worker has come to; only two of them touch the gate
  unfold workerStep
  cases hw : s.worker with
  | idle =>
    left
    dsimp only
    split
    · split
      · exact ⟨rfl, rfl, by rw [hw]; rfl, SessionTable.sameIds_refl _⟩
      · exact ⟨rfl, rfl, by rw [hw]; rfl, SessionTable.sameIds_refl _⟩
    · exact ⟨rfl, rfl, by rw [hw]; rfl, SessionTable.sameIds_refl _⟩
  | waiting t =>
    dsimp only
    cases hg : s.gate.acquire? with
    | some gate => exact .inr (.inl ⟨gate, t, rfl, rfl, rfl⟩)
    | none =>
      left
      dsimp only
      split
      · exact ⟨rfl, rfl, by rw [hw]; rfl, SessionTable.sameIds_refl _⟩
      · exact quiet_refl s
  | admitted t =>
    left
    have hq := quiet_startTurn s now t.session t.prompt t.overrides
    dsimp only
    split
    case h_1 e s' h =>
      rw [h] at hq
      exact ⟨hq.config, hq.gate, by rw [hw]; rfl, hq.sessions⟩
    case h_2 turn s' h =>
      rw [h] at hq
      exact ⟨hq.config, hq.gate, by rw [hw]; rfl, hq.sessions⟩
  | running t turn =>
    left
    have hq := quiet_endTurn s now turn
    exact ⟨hq.config, hq.gate, by rw [hw]; rfl, hq.sessions⟩
  | «over» t r => exact .inr (.inr ⟨t, r, rfl, rfl⟩)
  | uncounted t r =>
    left
    exact ⟨rfl, rfl, by rw [hw]; rfl, SessionTable.sameIds_refl _⟩
  | unsent t r =>
    left
    exact ⟨rfl, rfl, by rw [hw]; rfl, SessionTable.sameIds_refl _⟩
  | stopped => exact .inl (quiet_refl s)

/-- Retiring leaves the table and the terms of the service alone. -/
theorem retire_sessions (s : Service σ) (ids : List SessionId) :
    (s.retire ids).sessions = s.sessions ∧ (s.retire ids).config = s.config ∧
      (s.retire ids).gate = s.gate.closeSessions ids.length := by
  have hfold (ids : List SessionId) (s : Service σ) :
      (ids.foldl Service.retireOne s).sessions = s.sessions ∧
        (ids.foldl Service.retireOne s).config = s.config ∧
        (ids.foldl Service.retireOne s).gate = s.gate := by
    -- one session after the other, each from the state the last one left
    induction ids generalizing s with
    | nil => exact ⟨rfl, rfl, rfl⟩
    | cons id ids ih => exact ih (s.retireOne id)
  exact hfold ids { s with gate := s.gate.closeSessions ids.length }

/-- The table once the idle sessions are gone. -/
def swept (s : Service σ) (now : Nat) : SessionTable :=
  (s.sessions.evictIdle s.sessionPolicy now).2

/-- The service once the idle sessions are gone. -/
def withoutIdle (s : Service σ) (now : Nat) : Service σ :=
  { s with sessions := s.swept now }.retire (s.sessions.evictIdle s.sessionPolicy now).1

/-- The part of a creation that comes after the idle sessions are gone. -/
def openSession (s : Service σ) (now : Nat) : Except Error SessionId × Service σ :=
  match s.gate.openSession with
  | .error e => (.error e, s)
  | .ok gate =>
    match s.sessions.create s.sessionPolicy now none with
    | (.ok c, sessions) => (.ok c.id, { s with sessions, gate }.retire c.evicted)
    | (.error e, sessions) => (.error e, { s with sessions, gate := gate.closeSessions 1 })

theorem createSession_eq (s : Service σ) (now : Nat) (graph : Option GraphId) :
    s.createSession now graph =
      match s.currentGraph with
      | .error e => (.error e, s)
      | .ok current =>
        match graph.filter (· != current) with
        | some g => (.error (.notFound s!"graph {g} (current graph is {current})"), s)
        | none => (s.withoutIdle now).openSession now := rfl

end Service

end ChatInference
