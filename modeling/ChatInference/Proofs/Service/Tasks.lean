import ChatInference.Proofs.Service.Handover
import ChatInference.Proofs.Service.World
import ChatInference.Proofs.Session.Numbering

/-!
Which tasks are out and which ids are in use, after each part of a call. Nothing but an admission adds
a task, and the worker hands on those it was given; a task goes with its session from the queue to the turn.
-/

namespace ChatInference

/-- A turn that the worker runs is one of the session its task names. -/
def Worker.Faithful : Worker → Prop
  | .running t turn => turn.session = t.session
  | .idle | .waiting _ | .admitted _ | .over _ _ | .uncounted _ _ | .unsent _ _ | .stopped => True

/-- Whether a turn is one of a session, as far as it has a session left. -/
def InlineTurn.Of (id : SessionId) : InlineTurn → Prop
  | .admitted k _ _ => k = id
  | .running turn => turn.session = id
  | .ended _ => True

/-- The worker's turn, seen as one that runs in the call that submitted it. -/
def Worker.execution : Worker → Option (Task × InlineTurn)
  | .admitted t => some (t, .admitted t.session t.prompt t.overrides)
  | .running t turn => some (t, .running turn)
  | .idle | .waiting _ | .over _ _ | .uncounted _ _ | .unsent _ _ | .stopped => none

/-- What the worker executes is a task that it holds, in the session of the task. -/
theorem Worker.execution_of {w : Worker} {r : Task × InlineTurn} (h : w.execution = some r)
    (hf : w.Faithful) : r.1 ∈ w.held ∧ r.2.Of r.1.session := by
  cases w with
  | admitted task =>
    cases h
    exact ⟨List.mem_singleton_self task, rfl⟩
  | running task turn =>
    cases h
    exact ⟨List.mem_singleton_self task, hf⟩
  | idle => cases h
  | waiting task => cases h
  | «over» task r => cases h
  | uncounted task r => cases h
  | unsent task r => cases h
  | stopped => cases h

/-- The open session that the next step of a turn records in, if there is one. -/
def Service.joins {σ : Type} [InferenceEngine σ] (s : Service σ) (now : Nat) :
    InlineTurn → Option SessionId
  | .admitted id prompt o => ((·.session) <$> (s.startTurn now id prompt o).1).toOption
  | .running turn => if s.sessions.contains turn.session then some turn.session else none
  | .ended _ => none

namespace Queue

theorem assignId_session (q : Queue) (t : Task) : (q.assignId t).1.session = t.session := by
  unfold assignId
  split <;> rfl

/-- A task waits for the session, and under the ticket, that it was submitted with. -/
theorem mem_enqueue {q : Queue} {now : Nat} {t u : Task} (h : u ∈ (q.enqueue now t).2.2.waiting) :
    u ∈ q.waiting ∨ u.session = t.session ∧ u.ticket = t.ticket := by
  have htidy {v : Task} (hv : v ∈ (q.countSubmitted.tidy now).2.waiting) : v ∈ q.waiting :=
    ((moves_tidy q.countSubmitted now).mem hv).resolve_left List.not_mem_nil
  cases hr : q.running with
  | false =>
    rw [enqueue_of_stopped hr] at h
    exact .inl h
  | true =>
    rw [enqueue_of_running hr] at h
    dsimp only at h
    split at h
    case isTrue => exact .inl (htidy h)
    case isFalse =>
      -- the task joins those that the tidying left
      rcases (moves_push _ _).mem h with hnew | hold
      · rw [List.mem_singleton.1 hnew]
        exact .inr ⟨assignId_session _ t, assignId_ticket _ t⟩
      · exact .inl (htidy (((moves_assignId _ t).mem hold).resolve_left List.not_mem_nil))

end Queue

namespace Service

variable {σ : Type} {s s' s'' : Service σ}

/-- The tasks with the worker and in the queue. -/
def tasks (s : Service σ) : List Task := s.worker.held ++ s.queue.waiting

/-- No task comes in and no id comes into use. -/
structure Calm (s s' : Service σ) : Prop where
  sessions : s.sessions.Within s'.sessions
  tasks : s'.tasks ⊆ s.tasks
  nextTicket : s'.nextTicket = s.nextTicket
  faithful : s.worker.Faithful → s'.worker.Faithful

theorem calm_refl (s : Service σ) : Calm s s :=
  ⟨SessionTable.within_refl _, List.Subset.refl _, rfl, id⟩

theorem Calm.trans (h : Calm s s') (h' : Calm s' s'') : Calm s s'' :=
  ⟨h.sessions.trans h'.sessions, List.Subset.trans h'.tasks h.tasks, h'.nextTicket.trans h.nextTicket,
    fun hf => h'.faithful (h.faithful hf)⟩

theorem calm_of_undisturbed (h : s.Undisturbed s') (hs : s.sessions.Within s'.sessions) :
    Calm s s' := by
  have htasks : s'.tasks = s.tasks := by
    unfold tasks
    rw [h.worker, h.queue]
  refine ⟨hs, fun t ht => htasks ▸ ht, h.nextTicket, ?_⟩
  rw [h.worker]
  exact id

theorem calm_cancelTasksOf (s : Service σ) (id : SessionId) : Calm s (s.cancelTasksOf id) := by
  refine ⟨SessionTable.within_refl _, ?_, rfl, fun hf => hf⟩
  intro t ht
  rcases List.mem_append.1 ht with hheld | hwaits
  · exact List.mem_append_left _ hheld
  · have hmoves := Queue.moves_withdraw s.queue fun t => t.session == id
    exact List.mem_append_right _ ((hmoves.mem hwaits).resolve_left List.not_mem_nil)

theorem within_record (s : Service σ) (now : Nat) (id : SessionId) (reply : Option String)
    (nPast : Nat) : s.sessions.Within (s.record now id reply nPast).sessions := by
  unfold record
  split
  case h_1 sessions h => exact (SessionTable.update_ok h).2
  case h_2 => exact SessionTable.within_refl _

/-- An admission adds at most one task, of the session it is for and under the next ticket. -/
theorem tasks_enter (s : Service σ) (now : Nat) (id : SessionId) (prompt : String) (o : Overrides) :
    let r := s.enter now id prompt o
    r.2.sessions = s.sessions ∧ r.2.worker = s.worker ∧
      (r.1 = .ok .slot ∧ r.2.tasks = s.tasks ∧ r.2.nextTicket = s.nextTicket ∨
        r.1 ≠ .ok .slot ∧ r.2.nextTicket = s.nextTicket + 1 ∧
          ∀ t ∈ r.2.tasks, t ∈ s.tasks ∨ t.session = id ∧ t.ticket = s.nextTicket) := by
  unfold enter
  cases s.gate.acquire? with
  | some gate => exact ⟨rfl, rfl, .inl ⟨rfl, rfl, rfl⟩⟩
  | none =>
    refine ⟨rfl, rfl, .inr ⟨map_queued_ne_slot _ _, rfl, ?_⟩⟩
    dsimp only
    intro t ht
    rcases List.mem_append.1 ht with hheld | hwaits
    · exact .inl (List.mem_append_left _ hheld)
    · exact (Queue.mem_enqueue hwaits).imp_left (List.mem_append_right _)

/-- After a calm step the worker goes on with the task it has, or without one. -/
theorem Calm.worker {w w' : Worker} {q : Queue} (h : Calm s s') (hs : s'.worker = s.worker)
    (hw : s.worker = w) (hheld : w'.held ⊆ w.held) (hf : w'.Faithful)
    (hq : q.waiting = s'.queue.waiting) : Calm s { s' with queue := q, worker := w' } := by
  refine ⟨h.sessions, ?_, h.nextTicket, fun _ => hf⟩
  intro t ht
  apply h.tasks
  change t ∈ s'.worker.held ++ s'.queue.waiting
  rw [hs, hw, ← hq]
  rcases List.mem_append.1 ht with hwork | hwaits
  · exact List.mem_append_left _ (hheld hwork)
  · exact List.mem_append_right _ hwaits

variable [InferenceEngine σ]

theorem calm_clearCache (s : Service σ) (seq : Option SeqId) : Calm s (s.clearCache seq) :=
  calm_of_undisturbed (undisturbed_clearCache s seq) (SessionTable.within_refl _)

theorem calm_retireOne (s : Service σ) (id : SessionId) : Calm s (s.retireOne id) :=
  (calm_cancelTasksOf s id).trans (calm_clearCache _ _)

/-- A turn that starts is one of an open session. -/
theorem startTurn_ok {now : Nat} {id : SessionId} {prompt : String} {o : Overrides} {turn : Turn}
    (h : (s.startTurn now id prompt o).1 = .ok turn) :
    turn.session = id ∧ s.sessions.contains id = true := by
  unfold startTurn at h
  split at h
  · cases h
  · dsimp only at h
    split at h
    case h_1 => cases h
    case h_2 hb =>
      cases h
      exact ⟨rfl, (SessionTable.update_ok (SessionTable.update_of_beginTurn hb)).1⟩

theorem calm_startTurn (s : Service σ) (now : Nat) (id : SessionId) (prompt : String)
    (o : Overrides) : Calm s (s.startTurn now id prompt o).2 := by
  refine calm_of_undisturbed (undisturbed_startTurn s now id prompt o) ?_
  unfold startTurn
  split
  · exact SessionTable.within_refl _
  · dsimp only
    split
    case h_1 => exact SessionTable.within_refl _
    case h_2 hb => exact (SessionTable.update_ok (SessionTable.update_of_beginTurn hb)).2

theorem calm_endTurn (s : Service σ) (now : Nat) (t : Turn) : Calm s (s.endTurn now t).2 := by
  refine calm_of_undisturbed (undisturbed_endTurn s now t) ?_
  unfold endTurn
  dsimp only
  generalize he : { s with model := _ } = s₁
  have hsessions : s₁.sessions = s.sessions := by
    rw [← he]
  rw [← hsessions]
  split
  · exact within_record s₁ _ _ _ _
  · exact within_record s₁ _ _ _ _

theorem calm_workerStep (s : Service σ) (now : Nat) : Calm s (s.workerStep now) := by
  unfold workerStep
  cases hw : s.worker with
  | idle =>
    dsimp only
    split
    case isTrue =>
      have hmoves := Queue.moves_dequeue s.queue now
      split
      case h_1 t ht =>
        refine ⟨SessionTable.within_refl _, ?_, rfl, fun _ => trivial⟩
        intro u hu
        apply List.mem_append_right
        rcases List.mem_cons.1 hu with rfl | hwaits
        · -- the task was one of those that left the queue
          rw [ht] at hmoves
          exact hmoves.waiting.subset
            (List.mem_append_left _ (List.mem_append_right _ (List.mem_singleton_self u)))
        · exact (hmoves.mem hwaits).resolve_left List.not_mem_nil
      case h_2 =>
        refine ⟨SessionTable.within_refl _, ?_, rfl, fun _ => trivial⟩
        intro u hu
        exact List.mem_append_right _ ((hmoves.mem hu).resolve_left List.not_mem_nil)
    case isFalse =>
      exact (calm_refl s).worker rfl hw (List.nil_subset _) trivial rfl
  | waiting t =>
    dsimp only
    split
    case h_1 gate _ =>
      have hgate : Calm s { s with gate } := calm_of_undisturbed ⟨rfl, rfl, rfl, rfl, rfl⟩
        (SessionTable.within_refl _)
      exact hgate.worker rfl hw (List.Subset.refl _) trivial rfl
    case h_2 =>
      split
      · exact (calm_refl s).worker rfl hw (List.Subset.refl _) trivial rfl
      · exact calm_refl s
  | admitted t =>
    have hs := calm_startTurn s now t.session t.prompt t.overrides
    have hu := undisturbed_startTurn s now t.session t.prompt t.overrides
    dsimp only
    split
    case h_1 e s₁ h =>
      rw [h] at hs hu
      exact hs.worker hu.worker hw (List.Subset.refl _) trivial rfl
    case h_2 turn s₁ h =>
      have hturn := startTurn_ok (congrArg Prod.fst h)
      rw [h] at hs hu
      exact hs.worker hu.worker hw (List.Subset.refl _) hturn.1 rfl
  | running t turn =>
    have hu := undisturbed_endTurn s now turn
    exact (calm_endTurn s now turn).worker hu.worker hw (List.Subset.refl _) trivial rfl
  | «over» t r =>
    have hslot : Calm s s.releaseSlot := calm_of_undisturbed ⟨rfl, rfl, rfl, rfl, rfl⟩
      (SessionTable.within_refl _)
    exact hslot.worker rfl hw (List.Subset.refl _) trivial rfl
  | uncounted t r => exact (calm_refl s).worker rfl hw (List.Subset.refl _) trivial rfl
  | unsent t r =>
    -- the outcome is on its way, and no one holds the task
    have hsent : Calm s (s.send [(t, r)]) :=
      ⟨SessionTable.within_refl _, List.Subset.refl _, rfl, fun hf => hf⟩
    exact hsent.worker rfl hw (List.nil_subset _) trivial rfl
  | stopped => exact calm_refl s

end Service

namespace Service

variable {σ : Type} [InferenceEngine σ]

theorem joins_of {s : Service σ} {now : Nat} {u : InlineTurn} {k id : SessionId} (hu : u.Of k)
    (h : s.joins now u = some id) : id = k ∧ s.sessions.contains id = true := by
  cases u with
  | admitted l prompt o =>
    unfold joins at h
    dsimp only at h
    cases hr : (s.startTurn now l prompt o).1 with
    | error e =>
      rw [hr] at h
      cases h
    | ok turn =>
      rw [hr] at h
      cases h
      obtain ⟨hsession, hin⟩ := startTurn_ok hr
      exact ⟨hsession.trans hu, (congrArg s.sessions.contains hsession).trans hin⟩
  | running turn =>
    unfold joins at h
    dsimp only at h
    split at h
    case isTrue hin =>
      cases h
      exact ⟨hu, hin⟩
    case isFalse => cases h
  | ended r => cases h

end Service

namespace World

variable {σ : Type} [InferenceEngine σ] {w : World σ}

theorem calm_loadStep (w : World σ) (path : String) (text : Option String) :
    w.service.Calm (w.loadStep path text).service ∧ (w.loadStep path text).turns = w.turns := by
  have hmodel (model : Switch σ) : w.service.Calm { w.service with model } :=
    Service.calm_of_undisturbed ⟨rfl, rfl, rfl, rfl, rfl⟩ (SessionTable.within_refl _)
  unfold loadStep
  cases w.load with
  | none =>
    dsimp only
    split
    · exact ⟨hmodel _, rfl⟩
    · exact ⟨Service.calm_refl _, rfl⟩
  | begun =>
    dsimp only
    split
    · exact ⟨hmodel _, rfl⟩
    · exact ⟨hmodel _, rfl⟩
  | replaced => exact ⟨Service.calm_refl _, rfl⟩
  | ended => exact ⟨hmodel _, rfl⟩

/-- Only an insertion puts an id to use, and only the end of the cancellations clears the table. -/
theorem calm_advance (now : Nat) (hi : w.held ≠ .insert) (hc : w.held ≠ .cancel []) :
    w.service.Calm (w.advance now).service := by
  have hgate (gate : Gate) : w.service.Calm { w.service with gate } :=
    Service.calm_of_undisturbed ⟨rfl, rfl, rfl, rfl, rfl⟩ (SessionTable.within_refl _)
  have htable (sessions : SessionTable) (h : w.service.sessions.Within sessions) :
      w.service.Calm { w.service with sessions } :=
    Service.calm_of_undisturbed ⟨rfl, rfl, rfl, rfl, rfl⟩ h
  unfold advance
  cases hh : w.held with
  | free => exact Service.calm_refl _
  | sweep => exact htable _ (SessionTable.within_evictIdle _ _ _)
  | owe ids next => exact hgate _
  | retire ids next =>
    cases ids with
    | nil => cases next <;> exact Service.calm_refl _
    | cons id ids => exact Service.calm_retireOne _ id
  | atGate =>
    dsimp only
    split
    · exact Service.calm_refl _
    · exact hgate _
  | insert => exact absurd hh hi
  | giveBack e => exact hgate _
  | close id =>
    dsimp only
    split
    case h_1 => exact Service.calm_refl _
    case h_2 hclose => exact htable _ (SessionTable.within_close hclose)
  | last =>
    dsimp only
    split
    · exact Service.calm_clearCache _ _
    · exact Service.calm_refl _
  | replaced => exact Service.calm_refl _
  | cancel ids =>
    cases ids with
    | nil => exact absurd hh hc
    | cons id ids => exact Service.calm_cancelTasksOf _ id
  | cleared => exact hgate _

theorem turns_advance (w : World σ) (now : Nat) : (w.advance now).turns = w.turns := by
  unfold advance
  cases w.held with
  | retire ids next => cases ids <;> cases next <;> rfl
  | atGate =>
    dsimp only
    split <;> rfl
  | insert =>
    dsimp only
    split <;> rfl
  | close id =>
    dsimp only
    split <;> rfl
  | cancel ids => cases ids <;> rfl
  | free | sweep | owe _ _ | giveBack _ | last | replaced | cleared => rfl

theorem turnStep_ended {i : Nat} {r : Outcome} (hi : w.turns[i]? = some (.ended r)) (now : Nat) :
    w.turnStep i now = { w with service := w.service.releaseSlot, turns := w.turns.eraseIdx i } := by
  unfold turnStep
  rw [hi]

/-- An inline turn that is not over goes on as one of its session. -/
theorem turnStep_goes {i : Nat} {u : InlineTurn} (hi : w.turns[i]? = some u)
    (hu : ∀ r, u ≠ .ended r) (now : Nat) :
    w.service.Calm (w.turnStep i now).service ∧
      ∃ u', (w.turnStep i now).turns = w.turns.set i u' ∧ ∀ k, u.Of k → u'.Of k := by
  unfold turnStep
  rw [hi]
  cases u with
  | admitted id prompt o =>
    have hs := w.service.calm_startTurn now id prompt o
    dsimp only
    split
    case h_1 e s h =>
      rw [h] at hs
      exact ⟨hs, _, rfl, fun _ _ => trivial⟩
    case h_2 turn s h =>
      have hturn := Service.startTurn_ok (congrArg Prod.fst h)
      rw [h] at hs
      exact ⟨hs, _, rfl, fun k hk => hturn.1.trans hk⟩
  | running turn => exact ⟨w.service.calm_endTurn now turn, _, rfl, fun _ _ => trivial⟩
  | ended r => exact absurd rfl (hu r)

end World

end ChatInference
