import ChatInference.Proofs.Engine.Contract
import ChatInference.Proofs.Service.Calls

/-!
Sessions, the gate and the permits while calls run side by side. While the lock is free the gate
counts as many sessions as the table holds, and at all times as many permits are out as there are
turns that hold one.
-/

namespace ChatInference.World

variable {σ : Type}

/-- What holds after every step, while the lock is held too. -/
structure InStep (l : Limits) (w : World σ) : Prop where
  limits : w.service.config.limits = l
  limit : w.service.gate.limit = max l.maxConcurrent 1
  sound : w.service.sessions.Sound
  table : w.service.sessions.size ≤ l.maxSessions
  accounts : w.held.Accounts w.service.gate.sessions w.service.sessions.size
  gate : w.service.gate.sessions ≤ w.service.gate.limit
  permits : w.service.gate.inFlight = w.permits
  slots : w.service.gate.inFlight ≤ w.service.gate.limit

theorem inStep_opened (config : ServiceConfig) (e : σ) :
    InStep config.limits (opened config e) :=
  ⟨rfl, rfl, SessionTable.sound_empty, Nat.zero_le _, rfl, Nat.zero_le _, rfl, Nat.zero_le _⟩

variable {l : Limits} {w : World σ}

theorem InStep.accountsAt (h : InStep l w) {held : Held} (hh : w.held = held) :
    held.Accounts w.service.gate.sessions w.service.sessions.size := by
  rw [← hh]
  exact h.accounts

/-- A step that opens and closes nothing, and changes no permit. -/
theorem inStep_quiet (h : InStep l w) {s : Service σ} (hq : w.service.Quiet s) :
    InStep l { w with service := s } := by
  -- each field speaks of what a quiet step leaves alone
  have hpermits : w.turns.length + s.worker.permits = w.permits := by
    rw [hq.permits]
    rfl
  refine ⟨?_, ?_, hq.sessions.sound h.sound, ?_, ?_, ?_, ?_, ?_⟩
  · dsimp only
    rw [hq.config]
    exact h.limits
  · dsimp only
    rw [hq.gate]
    exact h.limit
  · dsimp only
    rw [hq.sessions.size]
    exact h.table
  · dsimp only
    rw [hq.gate, hq.sessions.size]
    exact h.accounts
  · dsimp only
    rw [hq.gate]
    exact h.gate
  · unfold permits
    dsimp only
    rw [hq.gate, hpermits]
    exact h.permits
  · dsimp only
    rw [hq.gate]
    exact h.slots

/-- A step of the call that holds the lock: another table and another count, in step with the place
the call has come to. -/
theorem inStep_recount (h : InStep l w) (held : Held) {sessions : SessionTable} {n : Nat}
    (hsound : sessions.Sound) (htable : sessions.size ≤ l.maxSessions)
    (hn : n ≤ w.service.gate.limit) (hacc : held.Accounts n sessions.size)
    (load : LoadPhase) (answers : List (Except Error SessionId)) :
    InStep l { w with
      service := { w.service with sessions, gate := { w.service.gate with sessions := n } }
      held
      load
      answers } :=
  ⟨h.limits, h.limit, hsound, htable, hacc, hn, h.permits, h.slots⟩

theorem inStep_held (h : InStep l w) (held : Held)
    (hacc : held.Accounts w.service.gate.sessions w.service.sessions.size) (load : LoadPhase)
    (answers : List (Except Error SessionId)) : InStep l { w with held, load, answers } :=
  inStep_recount h held h.sound h.table h.gate hacc load answers

theorem inStep_permits (h : InStep l w) {n : Nat} {worker : Worker} {turns : List InlineTurn}
    (hn : n = turns.length + worker.permits) (hle : n ≤ w.service.gate.limit) :
    InStep l { w with
      service := { w.service with gate := { w.service.gate with inFlight := n }, worker }
      turns } :=
  ⟨h.limits, h.limit, h.sound, h.table, h.accounts, h.gate, hn, hle⟩

theorem inStep_turns (h : InStep l w) {turns : List InlineTurn}
    (hlen : turns.length = w.turns.length) : InStep l { w with turns } := by
  have hpermits : w.service.gate.inFlight = turns.length + w.service.worker.permits := by
    rw [hlen]
    exact h.permits
  exact ⟨h.limits, h.limit, h.sound, h.table, h.accounts, h.gate, hpermits, h.slots⟩

theorem acquire_eq_some {g g' : Gate} (h : g.acquire? = some g') :
    g.inFlight < g.limit ∧ g' = { g with inFlight := g.inFlight + 1 } := by
  unfold Gate.acquire? at h
  split at h
  case isTrue hlt =>
    cases h
    exact ⟨hlt, rfl⟩
  case isFalse => cases h

theorem inStep_enter (h : InStep l w) (now : Nat) (id : SessionId) (prompt : String)
    (o : Overrides) : InStep l (w.enter now id prompt o) := by
  unfold enter
  obtain ⟨gate, hg, he⟩ | ⟨-, hslot, hq⟩ := w.service.enter_cases now id prompt o
  · obtain ⟨hlt, rfl⟩ := acquire_eq_some hg
    have hn : w.service.gate.inFlight + 1 =
        (w.turns ++ [InlineTurn.admitted id prompt o]).length + w.service.worker.permits := by
      have hp := h.permits
      unfold permits at hp
      rw [List.length_append, List.length_singleton]
      omega
    rw [he]
    exact inStep_permits h hn hlt
  · split
    case h_1 s hs =>
      rw [hs] at hslot
      exact absurd rfl hslot
    case h_2 r s hs hr =>
      rw [hr] at hq
      exact inStep_quiet h hq

variable [InferenceEngine σ]

theorem inStep_worker (h : InStep l w) (now : Nat) :
    InStep l { w with service := w.service.workerStep now } := by
  have hp := h.permits
  have hslots := h.slots
  unfold permits at hp
  obtain hq | ⟨gate, t, hg, hw, he⟩ | ⟨t, r, hw, he⟩ := w.service.workerStep_cases now
  · exact inStep_quiet h hq
  · -- the worker is let through
    obtain ⟨hlt, rfl⟩ := acquire_eq_some hg
    have hn : w.service.gate.inFlight + 1 = w.turns.length + (Worker.admitted t).permits := by
      change _ = w.turns.length + 1
      omega
    rw [he]
    exact inStep_permits h hn hlt
  · -- the worker's turn is over
    have hn : w.service.gate.inFlight - 1 = w.turns.length + (Worker.uncounted t r).permits := by
      change _ = w.turns.length + 0
      omega
    rw [he]
    exact inStep_permits h hn (by omega)

theorem inStep_turn (h : InStep l w) (i now : Nat) : InStep l (w.turnStep i now) := by
  have hp := h.permits
  have hslots := h.slots
  unfold permits at hp
  unfold turnStep
  split
  case h_1 => exact h
  case h_2 id prompt o hi =>
    have hq := w.service.quiet_startTurn now id prompt o
    split
    case h_1 e s hs =>
      rw [hs] at hq
      exact inStep_turns (inStep_quiet h hq) List.length_set
    case h_2 t s hs =>
      rw [hs] at hq
      exact inStep_turns (inStep_quiet h hq) List.length_set
  case h_3 t hi =>
    have hq := w.service.quiet_endTurn now t
    exact inStep_turns (inStep_quiet h hq) List.length_set
  case h_4 r hi =>
    -- the turn is over: it goes, and its permit with it
    obtain ⟨hlt, -⟩ := List.getElem?_eq_some_iff.1 hi
    have hn : w.service.gate.inFlight - 1 =
        (w.turns.eraseIdx i).length + w.service.worker.permits := by
      rw [List.length_eraseIdx_of_lt hlt]
      omega
    exact inStep_permits h hn (by omega)

theorem inStep_load (h : InStep l w) (path : String) (text : Option String) :
    InStep l (w.loadStep path text) := by
  -- a load works on the model, and no field speaks of that
  have hmodel (model : Switch σ) (load : LoadPhase) :
      InStep l { w with service := { w.service with model }, load } :=
    ⟨h.limits, h.limit, h.sound, h.table, h.accounts, h.gate, h.permits, h.slots⟩
  unfold loadStep
  dsimp only
  split
  · split
    · exact hmodel _ _
    · exact h
  · split
    · exact hmodel _ _
    · exact hmodel _ _
  · exact h
  · exact hmodel _ _

theorem inStep_sweep (h : InStep l w) (hh : w.held = .sweep) (now : Nat) :
    InStep l (w.advance now) := by
  have hacc : w.service.gate.sessions = w.service.sessions.size := h.accountsAt hh
  have htable := h.table
  have he := SessionTable.evicted_evictIdle h.sound w.service.sessionPolicy now
  unfold advance
  rw [hh]
  dsimp only
  generalize w.service.sessions.evictIdle w.service.sessionPolicy now = r at he
  -- from here the gate counts too many, by the sessions that are owed
  have hsize := he.size
  have howed : w.service.gate.sessions = r.2.size + r.1.length := by omega
  exact inStep_recount h (.owe r.1 .atGate) he.sound (by omega) h.gate howed w.load w.answers

theorem inStep_owe (h : InStep l w) {ids : List SessionId} {next : AfterRetire}
    (hh : w.held = .owe ids next) (now : Nat) : InStep l (w.advance now) := by
  have hacc : w.service.gate.sessions = w.service.sessions.size + ids.length := h.accountsAt hh
  have hgate := h.gate
  have heven : w.service.gate.sessions - ids.length = w.service.sessions.size := by omega
  unfold advance
  rw [hh]
  exact inStep_recount h (.retire ids next) h.sound h.table (by omega) heven w.load w.answers

theorem inStep_retire (h : InStep l w) {ids : List SessionId} {next : AfterRetire}
    (hh : w.held = .retire ids next) (now : Nat) : InStep l (w.advance now) := by
  have hacc : w.service.gate.sessions = w.service.sessions.size := h.accountsAt hh
  unfold advance
  rw [hh]
  cases ids with
  | cons id ids =>
    have hq := w.service.quiet_retireOne id
    exact inStep_held (inStep_quiet h hq) (.retire ids next) hacc w.load w.answers
  | nil =>
    cases next with
    | atGate => exact inStep_held h .atGate hacc w.load w.answers
    | answer id => exact inStep_held h .free hacc w.load _
    | last => exact inStep_held h .last hacc w.load w.answers

theorem inStep_atGate (h : InStep l w) (hh : w.held = .atGate) (now : Nat) :
    InStep l (w.advance now) := by
  have hacc : w.service.gate.sessions = w.service.sessions.size := h.accountsAt hh
  unfold advance
  rw [hh]
  dsimp only
  unfold Gate.openSession
  by_cases hlt : w.service.gate.sessions < w.service.gate.limit
  · -- the gate counts the session before the table has it
    have hone : w.service.gate.sessions + 1 = w.service.sessions.size + 1 := by omega
    rw [if_pos hlt]
    exact inStep_recount h .insert h.sound h.table hlt hone w.load w.answers
  · rw [if_neg hlt]
    exact inStep_held h .free hacc w.load _

theorem inStep_insert (h : InStep l w) (hh : w.held = .insert) (now : Nat)
    (hs : w.service.sessions.SearchEnds w.service.sessionPolicy now) : InStep l (w.advance now) := by
  have hacc : w.service.gate.sessions = w.service.sessions.size + 1 := h.accountsAt hh
  have hmax : w.service.sessionPolicy.maxSessions = l.maxSessions := by
    rw [← h.limits]
    rfl
  have htable := h.table
  unfold advance
  rw [hh]
  dsimp only
  split
  case h_1 c sessions hc =>
    obtain ⟨hsize, hle, hsound⟩ := SessionTable.create_ok h.sound hs hc
    have howed : w.service.gate.sessions = sessions.size + c.evicted.length := by omega
    exact inStep_recount h (.owe c.evicted (.answer c.id)) hsound (by omega) h.gate howed w.load
      w.answers
  case h_2 e sessions hc =>
    -- a failed creation evicts nobody, so one place is all there is to give back
    obtain ⟨rfl, hwhy⟩ := SessionTable.create_error h.sound (by omega) hc
    exact inStep_held h (.giveBack e) ⟨hacc, hwhy⟩ w.load w.answers

theorem inStep_giveBack (h : InStep l w) {e : Error} (hh : w.held = .giveBack e) (now : Nat) :
    InStep l (w.advance now) := by
  obtain ⟨hacc, -⟩ := h.accountsAt hh
  have hgate := h.gate
  have heven : w.service.gate.sessions - 1 = w.service.sessions.size := by omega
  unfold advance
  rw [hh]
  exact inStep_recount h .free h.sound h.table (by omega) heven w.load _

theorem inStep_close (h : InStep l w) {id : SessionId} (hh : w.held = .close id) (now : Nat) :
    InStep l (w.advance now) := by
  have hacc : w.service.gate.sessions = w.service.sessions.size := h.accountsAt hh
  have htable := h.table
  unfold advance
  rw [hh]
  dsimp only
  split
  case h_1 e hc => exact inStep_held h .free hacc w.load w.answers
  case h_2 s sessions hc =>
    obtain ⟨hsize, hsound⟩ := SessionTable.close_ok h.sound hc
    have howed : w.service.gate.sessions = sessions.size + [id].length := by
      rw [List.length_singleton]
      omega
    exact inStep_recount h (.owe [id] .last) hsound (by omega) h.gate howed w.load w.answers

theorem inStep_last (h : InStep l w) (hh : w.held = .last) (now : Nat) :
    InStep l (w.advance now) := by
  have hacc : w.service.gate.sessions = w.service.sessions.size := h.accountsAt hh
  unfold advance
  rw [hh]
  dsimp only
  split
  · have hq := w.service.quiet_clearCache none
    exact inStep_held (inStep_quiet h hq) .free hacc w.load w.answers
  · exact inStep_held h .free hacc w.load w.answers

theorem inStep_cancel (h : InStep l w) {ids : List SessionId} (hh : w.held = .cancel ids)
    (now : Nat) : InStep l (w.advance now) := by
  have hacc : w.service.gate.sessions = w.service.sessions.size := h.accountsAt hh
  unfold advance
  rw [hh]
  cases ids with
  | cons id ids =>
    have hq := w.service.quiet_cancelTasksOf id
    exact inStep_held (inStep_quiet h hq) (.cancel ids) hacc w.load w.answers
  | nil =>
    have hempty : (w.service.sessions.clear).size = 0 := rfl
    exact inStep_recount h .cleared SessionTable.sound_empty (Nat.zero_le _) h.gate hempty w.load
      w.answers

theorem inStep_cleared (h : InStep l w) (hh : w.held = .cleared) (now : Nat) :
    InStep l (w.advance now) := by
  have hempty : w.service.sessions.size = 0 := h.accountsAt hh
  unfold advance
  rw [hh]
  exact inStep_recount h .free h.sound h.table (Nat.zero_le _) hempty.symm .ended w.answers

theorem inStep_advance (h : InStep l w) (now : Nat)
    (hs : w.held = .insert → w.service.sessions.SearchEnds w.service.sessionPolicy now) :
    InStep l (w.advance now) := by
  cases hh : w.held with
  | free =>
    unfold advance
    rw [hh]
    exact h
  | sweep => exact inStep_sweep h hh now
  | owe ids next => exact inStep_owe h hh now
  | retire ids next => exact inStep_retire h hh now
  | atGate => exact inStep_atGate h hh now
  | insert => exact inStep_insert h hh now (hs hh)
  | giveBack e => exact inStep_giveBack h hh now
  | close id => exact inStep_close h hh now
  | last => exact inStep_last h hh now
  | replaced =>
    have hacc : w.service.gate.sessions = w.service.sessions.size := h.accountsAt hh
    unfold advance
    rw [hh]
    exact inStep_held h (.cancel w.service.sessions.sessions.keys) hacc w.load w.answers
  | cancel ids => exact inStep_cancel h hh now
  | cleared => exact inStep_cleared h hh now

theorem inStep_step {w' : World σ} (hs : Step w w') (h : InStep l w) : InStep l w' := by
  cases hs with
  | create hf =>
    have hacc : w.service.gate.sessions = w.service.sessions.size := h.accountsAt hf
    exact inStep_held h .sweep hacc w.load w.answers
  | close id hf =>
    have hacc : w.service.gate.sessions = w.service.sessions.size := h.accountsAt hf
    exact inStep_held h (.close id) hacc w.load w.answers
  | replaced hf =>
    have hacc : w.service.gate.sessions = w.service.sessions.size := h.accountsAt hf
    exact inStep_held h .replaced hacc w.load w.answers
  | advance now hends => exact inStep_advance h now hends
  | load path text => exact inStep_load h path text
  | enter now id prompt o => exact inStep_enter h now id prompt o
  | turn i now => exact inStep_turn h i now
  | worker now => exact inStep_worker h now

theorem inStep_run {w' : World σ} (hr : Run w w') (h : InStep l w) : InStep l w' := by
  -- over the steps taken so far
  induction hr with
  | refl => exact h
  | tail _ step ih => exact inStep_step step ih

/-- The gate turns a session away where it counts as many as it lets through. -/
theorem gate_refuses_iff (g : Gate) :
    (∃ n k, g.openSession = .error (.concurrencyLimitExceeded n k)) ↔ g.limit ≤ g.sessions := by
  unfold Gate.openSession
  by_cases hlt : g.sessions < g.limit
  · rw [if_pos hlt]
    constructor
    · rintro ⟨n, k, h⟩
      cases h
    · intro hle
      omega
  · rw [if_neg hlt]
    constructor
    · intro _
      omega
    · intro _
      exact ⟨_, _, rfl⟩

theorem openSession_refuses_iff (s : Service σ) (now : Nat) (hsound : s.sessions.Sound)
    (hmax : s.sessions.size ≤ s.sessionPolicy.maxSessions) :
    (∃ n k, (s.openSession now).1 = .error (.concurrencyLimitExceeded n k)) ↔
      s.gate.limit ≤ s.gate.sessions := by
  rw [← gate_refuses_iff]
  unfold Service.openSession
  cases hg : s.gate.openSession with
  | error e =>
    constructor
    · rintro ⟨n, k, h⟩
      cases h
      exact ⟨n, k, rfl⟩
    · rintro ⟨n, k, h⟩
      cases h
      exact ⟨n, k, rfl⟩
  | ok gate =>
    have hgate : ¬∃ n k, (Except.ok gate : Except Error Gate) =
        .error (.concurrencyLimitExceeded n k) := by
      rintro ⟨n, k, h⟩
      cases h
    -- past the gate a creation fails for the size of the table alone
    refine iff_of_false ?_ hgate
    rintro ⟨n, k, h⟩
    dsimp only at h
    cases hc : s.sessions.create s.sessionPolicy now none with
    | mk r t =>
      rw [hc] at h
      cases r with
      | ok c => cases h
      | error e =>
        obtain ⟨-, why, rfl⟩ := SessionTable.create_error hsound hmax hc
        cases h

/-- A creation on a model that is ready is turned away for the number of open sessions where, once
the idle ones are gone, as many are open as may be. -/
theorem createSession_refuses_iff (h : InStep l w) (hf : w.held = .free) (now : Nat)
    {graph : Option GraphId} {current : GraphId} (hc : w.service.currentGraph = .ok current)
    (hg : graph = none ∨ graph = some current) :
    (∃ n k, (w.service.createSession now graph).1 = .error (.concurrencyLimitExceeded n k)) ↔
      (w.service.swept now).size = max l.maxConcurrent 1 := by
  have hacc : w.service.gate.sessions = w.service.sessions.size := h.accountsAt hf
  have he := SessionTable.evicted_evictIdle h.sound w.service.sessionPolicy now
  have hsize : (w.service.swept now).size +
      (w.service.sessions.evictIdle w.service.sessionPolicy now).1.length =
      w.service.sessions.size := he.size
  -- retiring the idle ones lowers the count by as many as left the table
  obtain ⟨hsessions, hconfig, hgate⟩ := Service.retire_sessions
    { w.service with sessions := w.service.swept now }
    (w.service.sessions.evictIdle w.service.sessionPolicy now).1
  change (w.service.withoutIdle now).sessions = w.service.swept now at hsessions
  change (w.service.withoutIdle now).config = w.service.config at hconfig
  have hsound : (w.service.withoutIdle now).sessions.Sound := by
    rw [hsessions]
    exact he.sound
  have hmax : (w.service.withoutIdle now).sessions.size ≤
      (w.service.withoutIdle now).sessionPolicy.maxSessions := by
    have htable := h.table
    unfold Service.sessionPolicy
    rw [hsessions, hconfig, h.limits]
    change _ ≤ l.maxSessions
    omega
  -- a graph that is named is the current one, so the creation goes on to the gate
  have hnone : graph.filter (· != current) = none := by
    obtain rfl | rfl := hg
    · rfl
    · simp
  have heq : w.service.createSession now graph = (w.service.withoutIdle now).openSession now := by
    rw [Service.createSession_eq, hc]
    dsimp only
    rw [hnone]
  have hcount : (w.service.withoutIdle now).gate = w.service.gate.closeSessions
      (w.service.sessions.evictIdle w.service.sessionPolicy now).1.length := hgate
  have hle := h.gate
  rw [heq, openSession_refuses_iff _ now hsound hmax, hcount, ← h.limit]
  change w.service.gate.limit ≤ w.service.gate.sessions -
    (w.service.sessions.evictIdle w.service.sessionPolicy now).1.length ↔ _
  constructor
  · intro hfull
    omega
  · intro hfull
    omega

theorem advance_refuses_iff (h : InStep l w) (hh : w.held = .atGate) (now : Nat) :
    (∃ n k, (w.advance now).answers =
      w.answers ++ [.error (.concurrencyLimitExceeded n k)]) ↔
      w.service.sessions.size = max l.maxConcurrent 1 := by
  have hacc : w.service.gate.sessions = w.service.sessions.size := h.accountsAt hh
  have hle := h.gate
  have hiff : (∃ n k, (w.advance now).answers =
      w.answers ++ [.error (.concurrencyLimitExceeded n k)]) ↔
      w.service.gate.limit ≤ w.service.gate.sessions := by
    rw [← gate_refuses_iff]
    unfold advance
    rw [hh]
    dsimp only
    cases hg : w.service.gate.openSession with
    | error e => simp
    | ok gate => simp
  rw [hiff, ← h.limit]
  constructor
  · intro hfull
    omega
  · intro hfull
    omega

/-- In every run, whatever comes between the steps of a call: while the lock is free the gate counts
the sessions of the table, no more than may be open; each permit that is out is held by a turn, and
there are no more than the gate has; and a creation is turned away for the number of sessions
exactly when, the idle ones gone, as many are open as may be. -/
theorem sessions_gate_and_permits_in_step (config : ServiceConfig) (e : σ) (w : World σ)
    (h : Run (opened config e) w) :
    (w.held = .free →
      w.service.gate.sessions = w.service.sessions.size ∧
        w.service.sessions.size ≤ max config.limits.maxConcurrent 1 ∧
        w.service.sessions.size ≤ config.limits.maxSessions) ∧
      w.service.gate.inFlight = w.permits ∧ w.permits ≤ max config.limits.maxConcurrent 1 ∧
      (∀ now, w.held = .atGate →
        ((∃ n k, (w.advance now).answers =
            w.answers ++ [.error (.concurrencyLimitExceeded n k)]) ↔
          w.service.sessions.size = max config.limits.maxConcurrent 1)) ∧
      (∀ e, w.held = .giveBack e → ∃ why, e = .resourceExhausted why) ∧
      ∀ now graph current, w.held = .free → w.service.currentGraph = .ok current →
        graph = none ∨ graph = some current →
        ((∃ n k, (w.service.createSession now graph).1 =
            .error (.concurrencyLimitExceeded n k)) ↔
          (w.service.swept now).size = max config.limits.maxConcurrent 1) := by
  have hin : InStep config.limits w := inStep_run h (inStep_opened config e)
  have hgate := hin.gate
  have hslots := hin.slots
  rw [hin.limit] at hgate hslots
  refine ⟨?_, hin.permits, ?_, fun now hh => advance_refuses_iff hin hh now, ?_, ?_⟩
  · intro hf
    have hacc : w.service.gate.sessions = w.service.sessions.size := hin.accountsAt hf
    exact ⟨hacc, by omega, hin.table⟩
  · rw [← hin.permits]
    exact hslots
  · intro e he
    exact (hin.accountsAt he).2
  · intro now graph current hf hc hg
    exact createSession_refuses_iff hin hf now hc hg

/-- One session and one turn at a time, and no session is evicted. -/
def single : ServiceConfig := { limits := { maxConcurrent := 1, autoCleanup := false } }

/-- A model is loaded, a turn has the permit, and a session is open. -/
def occupied (answers : List (Except Error SessionId)) : World RehearsedEngine :=
  let idle : World RehearsedEngine := opened single {}
  let loaded := { idle with service := (idle.service.load "a" none).2 }
  let busy := loaded.enter 1 7 "Hi" {}
  { busy with service := (busy.service.createSession 2 none).2, answers }

theorem in_step_while_occupied :
    ∃ answers, Run (opened single {}) (occupied answers) ∧ (occupied answers).held = .free ∧
      (occupied answers).service.gate.sessions = (occupied answers).service.sessions.size ∧
      (occupied answers).service.gate.inFlight = (occupied answers).permits ∧
      (occupied answers).permits = 1 ∧
      ∃ n k, ((occupied answers).service.createSession 3 none).1 =
        .error (.concurrencyLimitExceeded n k) := by
  let idle : World RehearsedEngine := opened single {}
  let loaded : World RehearsedEngine := { idle with service := (idle.service.load "a" none).2 }
  have hload : Run idle loaded := run_load rfl rfl "a" none
  have henter : Run loaded (loaded.enter 1 7 "Hi" {}) := run_one (.enter 1 7 "Hi" {})
  have hends : ((loaded.enter 1 7 "Hi" {}).service.swept 2).SearchEnds
      (loaded.enter 1 7 "Hi" {}).service.sessionPolicy 2 :=
    .inr ⟨1, ⟨Nat.le_refl 1, by decide⟩, rfl⟩
  obtain ⟨answers, hcreate⟩ := run_createSession (w := loaded.enter 1 7 "Hi" {}) rfl 2 none hends
  have hrun : Run (opened single {}) (occupied answers) := (hload.trans henter).trans hcreate
  have h := sessions_gate_and_permits_in_step single {} (occupied answers) hrun
  exact ⟨answers, hrun, rfl, (h.1 rfl).1, h.2.1, rfl, (h.2.2.2.2.2 3 none 1 rfl rfl (.inl rfl)).2 rfl⟩

end ChatInference.World
