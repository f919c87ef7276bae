import ChatInference.Proofs.Service.Handover
import ChatInference.Proofs.Service.World
import ChatInference.Service.Task

/-!
The way of queued turns to their outcomes, whatever calls are under way. The worker has its task
outside any lock, and a call that takes tasks out of the queue has let go of the queue when it answers
them; each of these is a step of its own here, and any other may come between. Every run of the
service's calls, and its end, is a run of these steps.
-/

namespace ChatInference

/-- A service, the tasks that calls have taken out of its queue and not answered yet, and by ticket
what became of its queued turns. -/
structure Mailroom (σ : Type) where
  service : Service σ
  withdrawn : List Task := []
  queued : List Nat := []
  /-- The turns whose execution has begun. -/
  executed : List Nat := []
  /-- What the executions came to. -/
  results : List (Nat × Outcome) := []

namespace Mailroom

variable {σ : Type}

def opened (config : ServiceConfig) (e : σ) : Mailroom σ := { service := .ofConfig config e }

/-- A turn gets a slot, a place in the queue, or neither. -/
def enter (m : Mailroom σ) (now : Nat) (id : SessionId) (prompt : String) (o : Overrides) :
    Mailroom σ :=
  let (r, service) := m.service.enter now id prompt o
  { m with service, queued := m.queued ++ Admission.queuedTickets r }

/-- A call takes tasks out of the queue. -/
def withdraw (m : Mailroom σ) (gone : List Task) (queue : Queue) : Mailroom σ :=
  { m with service := { m.service with queue }, withdrawn := m.withdrawn ++ gone }

/-- A call answers one of the tasks it took out. -/
def answer (m : Mailroom σ) (i : Nat) : Mailroom σ :=
  match m.withdrawn[i]? with
  | none => m
  | some t =>
    { m with
      service := m.service.send [Queue.cancelled t]
      withdrawn := m.withdrawn.eraseIdx i }

/-- The worker's next step. An execution begins where the worker has just been given a slot, and is
over where there is an outcome. -/
def work [InferenceEngine σ] (m : Mailroom σ) (now : Nat) : Mailroom σ :=
  let service := m.service.workerStep now
  { m with
    service
    executed := m.executed ++ m.service.worker.starting
    results := m.results ++ service.worker.ended }

/-- One step of any call. Closing a session, evicting one and replacing the model withdraw the tasks
of sessions; what these calls do besides, and what turns do that run in the call they were submitted
by, goes on elsewhere. -/
inductive Step [InferenceEngine σ] : Mailroom σ → Mailroom σ → Prop
  | enter {m : Mailroom σ} (now : Nat) (id : SessionId) (prompt : String) (o : Overrides) :
      Step m (m.enter now id prompt o)
  | work {m : Mailroom σ} (now : Nat) : Step m (m.work now)
  | cancelTask {m : Mailroom σ} (id : TaskId) :
      Step m (m.withdraw (m.service.queue.cancel id).1.toList (m.service.queue.cancel id).2.2)
  | cancelSession {m : Mailroom σ} (id : SessionId) :
      Step m (m.withdraw (m.service.queue.cancelSession id).1 (m.service.queue.cancelSession id).2)
  | shutdown {m : Mailroom σ} :
      Step m (m.withdraw (m.service.queue.shutdown.1.map (·.1)) m.service.queue.shutdown.2)
  | answer {m : Mailroom σ} (i : Nat) : Step m (m.answer i)
  | elsewhere {m : Mailroom σ} {s : Service σ} (h : m.service.Undisturbed s)
      (collectable : Keyed Collectable) : Step m { m with service := { s with collectable } }

/-- Steps of all calls in any number and order. -/
abbrev Run [InferenceEngine σ] : Mailroom σ → Mailroom σ → Prop := Relation.ReflTransGen Step

/-- The service comes to a state in which every task withdrawn on the way has its answer. -/
def Reaches [InferenceEngine σ] (m : Mailroom σ) (s : Service σ) : Prop :=
  ∃ m', Run m m' ∧ m'.service = s ∧ m'.withdrawn = m.withdrawn

theorem send_send (s : Service σ) (as bs : List Answer) :
    (s.send as).send bs = s.send (as ++ bs) := by
  unfold Service.send
  rw [List.map_append, List.append_assoc]

theorem service_enter (w : World σ) (now : Nat) (id : SessionId) (prompt : String)
    (o : Overrides) : (w.enter now id prompt o).service = (w.service.enter now id prompt o).2 := by
  unfold World.enter
  split
  case h_1 s h => rw [h]
  case h_2 r s _ h => rw [h]

variable [InferenceEngine σ] {m : Mailroom σ} {s s' : Service σ}

theorem run_one {m' : Mailroom σ} (h : Step m m') : Run m m' := Relation.ReflTransGen.single h

theorem reaches_self (m : Mailroom σ) : Reaches m m.service := ⟨m, .refl, rfl, rfl⟩

theorem Reaches.trans (h : Reaches m s) (h' : ∀ m' : Mailroom σ, m'.service = s → Reaches m' s') :
    Reaches m s' := by
  obtain ⟨m₁, hrun, hs, hw⟩ := h
  obtain ⟨m₂, hrun', hs', hw'⟩ := h' m₁ hs
  exact ⟨m₂, hrun.trans hrun', hs', hw'.trans hw⟩

theorem reaches_elsewhere (h : m.service.Undisturbed s) : Reaches m s :=
  ⟨{ m with service := s }, run_one (.elsewhere h s.collectable), rfl, rfl⟩

theorem reaches_enter (m : Mailroom σ) (now : Nat) (id : SessionId) (prompt : String)
    (o : Overrides) : Reaches m (m.service.enter now id prompt o).2 :=
  ⟨m.enter now id prompt o, run_one (.enter now id prompt o), rfl, rfl⟩

theorem reaches_workerStep (m : Mailroom σ) (now : Nat) : Reaches m (m.service.workerStep now) :=
  ⟨m.work now, run_one (.work now), rfl, rfl⟩

theorem reaches_foldl {α : Type} {f : Service σ → α → Service σ}
    (hf : ∀ (m : Mailroom σ) a, Reaches m (f m.service a)) (xs : List α) (m : Mailroom σ) :
    Reaches m (xs.foldl f m.service) := by
  induction xs generalizing m with
  | nil => exact reaches_self m
  | cons x xs ih =>
    apply (hf m x).trans
    intro m' hm'
    rw [List.foldl_cons, ← hm']
    exact ih m'

theorem reaches_work (m : Mailroom σ) (now : Nat) : Reaches m (m.service.work now) := by
  have htask (m : Mailroom σ) (i : Nat) : Reaches m (m.service.workTask (now + i)) :=
    reaches_foldl (fun m _ => reaches_workerStep m (now + i)) (List.range Service.stepsPerTask) m
  exact reaches_foldl htask (List.range (m.service.queue.size + 2)) m

/-- The tasks that were withdrawn last are answered one after the other. -/
theorem run_answers (gone : List Task) (m : Mailroom σ) :
    Run { m with withdrawn := m.withdrawn ++ gone }
      { m with service := m.service.send (gone.map Queue.cancelled) } := by
  induction gone generalizing m with
  | nil =>
    have hsend : m.service.send [] = m.service := by
      unfold Service.send
      rw [List.map_nil, List.append_nil]
    rw [List.append_nil, List.map_nil, hsend]
  | cons t ts ih =>
    have hget : (m.withdrawn ++ t :: ts)[m.withdrawn.length]? = some t := by
      rw [List.getElem?_append_right (Nat.le_refl _), Nat.sub_self]
      rfl
    have herase : (m.withdrawn ++ t :: ts).eraseIdx m.withdrawn.length = m.withdrawn ++ ts := by
      rw [List.eraseIdx_append_of_length_le (Nat.le_refl _), Nat.sub_self, List.eraseIdx_cons_zero]
    have hstep := run_one
      (.answer (m := { m with withdrawn := m.withdrawn ++ t :: ts }) m.withdrawn.length)
    unfold answer at hstep
    dsimp only at hstep
    rw [hget] at hstep
    dsimp only at hstep
    rw [herase] at hstep
    have hrest := ih { m with service := m.service.send [Queue.cancelled t] }
    dsimp only at hrest
    rw [send_send] at hrest
    exact hstep.trans hrest

theorem reaches_withdraw {gone : List Task} {queue : Queue}
    (h : Step m (m.withdraw gone queue)) :
    Reaches m (Service.send { m.service with queue } (gone.map Queue.cancelled)) :=
  ⟨{ m with service := Service.send { m.service with queue } (gone.map Queue.cancelled) },
    (run_one h).trans (run_answers gone { m with service := { m.service with queue } }), rfl, rfl⟩

theorem reaches_cancelTasksOf (m : Mailroom σ) (id : SessionId) :
    Reaches m (m.service.cancelTasksOf id) :=
  reaches_withdraw (.cancelSession id)

/-- A call that takes a task back withdraws it and answers it. -/
theorem reaches_cancelTask (m : Mailroom σ) (id : TaskId) :
    Reaches m (m.service.cancelTask id).2 := by
  have h := reaches_withdraw (.cancelTask (m := m) id)
  unfold Service.cancelTask
  cases hc : m.service.queue.cancel id with
  | mk t r =>
    rw [hc] at h
    cases t with
    | some t => exact h
    | none =>
      have hsend : Service.send { m.service with queue := r.2 } [] =
          { m.service with queue := r.2 } := by
        unfold Service.send
        rw [List.map_nil, List.append_nil]
      rw [Option.toList_none, List.map_nil, hsend] at h
      exact h

/-- The end of the service withdraws and answers all that wait, and the worker ends what it has. -/
theorem reaches_shutdown (m : Mailroom σ) (now : Nat) : Reaches m (m.service.shutdown now) := by
  have hanswers : (m.service.queue.shutdown.1.map (·.1)).map Queue.cancelled =
      m.service.queue.shutdown.1 := by
    simp only [Queue.shutdown, List.map_map, Function.comp_def, Queue.cancelled]
    rfl
  have hqueue := reaches_withdraw (.shutdown (m := m))
  rw [hanswers] at hqueue
  -- the worker ends what it has, and the model goes last
  apply hqueue.trans
  intro m₁ h₁
  apply (reaches_work m₁ now).trans
  intro m₂ h₂
  rw [h₁] at h₂
  apply reaches_elsewhere
  rw [h₂]
  exact ⟨rfl, rfl, rfl, rfl, rfl⟩

theorem reaches_retireOne (m : Mailroom σ) (id : SessionId) :
    Reaches m (m.service.retireOne id) := by
  apply (reaches_cancelTasksOf m id).trans
  intro m' h
  apply reaches_elsewhere
  rw [h]
  exact Service.undisturbed_clearCache _ _

theorem reaches_advance {w : World σ} (hm : m.service = w.service) (now : Nat) :
    Reaches m (w.advance now).service := by
  have hsame : Reaches m w.service := hm ▸ reaches_self m
  have helsewhere {s : Service σ} (h : w.service.Undisturbed s) : Reaches m s :=
    reaches_elsewhere (hm ▸ h)
  -- only where sessions lose their tasks does the call come near the queue
  unfold World.advance
  dsimp only
  cases w.held with
  | free => exact hsame
  | sweep => exact helsewhere ⟨rfl, rfl, rfl, rfl, rfl⟩
  | owe ids next => exact helsewhere ⟨rfl, rfl, rfl, rfl, rfl⟩
  | retire ids next =>
    cases ids with
    | cons id ids => exact hm ▸ reaches_retireOne m id
    | nil => cases next <;> exact hsame
  | atGate =>
    dsimp only
    split
    · exact hsame
    · exact helsewhere ⟨rfl, rfl, rfl, rfl, rfl⟩
  | insert =>
    dsimp only
    split
    · exact helsewhere ⟨rfl, rfl, rfl, rfl, rfl⟩
    · exact helsewhere ⟨rfl, rfl, rfl, rfl, rfl⟩
  | giveBack e => exact helsewhere ⟨rfl, rfl, rfl, rfl, rfl⟩
  | close id =>
    dsimp only
    split
    · exact hsame
    · exact helsewhere ⟨rfl, rfl, rfl, rfl, rfl⟩
  | last =>
    dsimp only
    split
    · exact helsewhere (Service.undisturbed_clearCache _ _)
    · exact hsame
  | replaced => exact hsame
  | cancel ids =>
    cases ids with
    | cons id ids => exact hm ▸ reaches_cancelTasksOf m id
    | nil => exact helsewhere ⟨rfl, rfl, rfl, rfl, rfl⟩
  | cleared => exact helsewhere ⟨rfl, rfl, rfl, rfl, rfl⟩

theorem undisturbed_turnStep (w : World σ) (i now : Nat) :
    w.service.Undisturbed (w.turnStep i now).service := by
  unfold World.turnStep
  split
  case h_1 => exact Service.undisturbed_refl _
  case h_2 id prompt o _ =>
    have hs := Service.undisturbed_startTurn w.service now id prompt o
    split
    case h_1 e s h =>
      rw [h] at hs
      exact hs
    case h_2 t s h =>
      rw [h] at hs
      exact hs
  case h_3 t _ => exact Service.undisturbed_endTurn w.service now t
  case h_4 r _ => exact ⟨rfl, rfl, rfl, rfl, rfl⟩

theorem undisturbed_loadStep (w : World σ) (path : String) (text : Option String) :
    w.service.Undisturbed (w.loadStep path text).service := by
  unfold World.loadStep
  dsimp only
  split
  · split <;> exact ⟨rfl, rfl, rfl, rfl, rfl⟩
  · split <;> exact ⟨rfl, rfl, rfl, rfl, rfl⟩
  · exact Service.undisturbed_refl _
  · exact ⟨rfl, rfl, rfl, rfl, rfl⟩

theorem reaches_step {w w' : World σ} (h : World.Step w w') (hm : m.service = w.service) :
    Reaches m w'.service := by
  cases h with
  | create _ => exact hm ▸ reaches_self m
  | close id _ => exact hm ▸ reaches_self m
  | replaced _ _ => exact hm ▸ reaches_self m
  | advance now _ => exact reaches_advance hm now
  | load path text => exact reaches_elsewhere (hm ▸ undisturbed_loadStep w path text)
  | enter now id prompt o =>
    rw [service_enter, ← hm]
    exact reaches_enter m now id prompt o
  | turn i now => exact reaches_elsewhere (hm ▸ undisturbed_turnStep w i now)
  | worker now => exact hm ▸ reaches_workerStep m now

/-- Whatever the calls of a service do, in steps taken in any order, goes through the mailroom. -/
theorem reaches_run {w w' : World σ} (h : World.Run w w') (hm : m.service = w.service) :
    Reaches m w'.service := by
  -- over the steps taken so far
  induction h with
  | refl => exact hm ▸ reaches_self m
  | tail _ step ih => exact ih.trans fun m' hm' => reaches_step step hm'

end Mailroom

end ChatInference
