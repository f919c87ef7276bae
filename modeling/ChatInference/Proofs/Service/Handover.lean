import ChatInference.Proofs.Queue.Accounting
import ChatInference.Proofs.Queue.Ids
import ChatInference.Proofs.Service.Turns

/-!
What a step of the worker, and an admission, do to the turns that are queued. A turn is handed on and
never lost: from the queue to the worker, or from either to those answered.
-/

namespace ChatInference

namespace Worker

/-- The task in the worker's hands. -/
def held : Worker → List Task
  | .waiting t | .admitted t | .running t _ | .over t _ | .uncounted t _ | .unsent t _ => [t]
  | .idle | .stopped => []

/-- The turn that the worker executes next. -/
def starting : Worker → List Nat
  | .admitted t => [t.ticket]
  | .idle | .waiting _ | .running _ _ | .over _ _ | .uncounted _ _ | .unsent _ _ | .stopped => []

/-- The turn under execution. -/
def underway : Worker → List Nat
  | .running t _ => [t.ticket]
  | .idle | .waiting _ | .admitted _ | .over _ _ | .uncounted _ _ | .unsent _ _ | .stopped => []

/-- The turn whose execution has just come to an end. -/
def ended : Worker → List (Nat × Outcome)
  | .over t r => [(t.ticket, r)]
  | .idle | .waiting _ | .admitted _ | .running _ _ | .uncounted _ _ | .unsent _ _ | .stopped => []

end Worker

/-- The ticket of a turn that has a place in the queue. -/
def Admission.queuedTickets : Except Error Admission → List Nat
  | .ok (.queued _ ticket) => [ticket]
  | .ok .slot | .error _ => []

namespace Queue

theorem isRefusal_of_purge {q : Queue} {now : Nat} {a : Answer} (h : a ∈ (q.purge now).1) :
    a.2.isRefusal = true := by
  obtain ⟨t, -, rfl⟩ := List.mem_map.1 h
  rfl

theorem isRefusal_of_dequeue {q : Queue} {now : Nat} {a : Answer} (h : a ∈ (q.dequeue now).2.1) :
    a.2.isRefusal = true := by
  unfold dequeue at h
  split at h
  · exact isRefusal_of_purge h
  · cases h

theorem isRefusal_of_enqueue {q : Queue} {now : Nat} {t : Task} {a : Answer}
    (h : a ∈ (q.enqueue now t).2.1) : a.2.isRefusal = true := by
  have htidy (ha : a ∈ (q.countSubmitted.tidy now).1) : a.2.isRefusal = true := by
    unfold tidy at ha
    split at ha
    · exact isRefusal_of_purge ha
    · cases ha
  cases hr : q.running with
  | false =>
    rw [enqueue_of_stopped hr] at h
    cases h
  | true =>
    rw [enqueue_of_running hr] at h
    dsimp only at h
    split at h
    · exact htidy h
    · exact htidy h

end Queue

/-- The outcomes that turns came to under execution. -/
def Outcome.executed (mail : List (Nat × Outcome)) : List (Nat × Outcome) :=
  mail.filter fun p => !p.2.isRefusal

/-- What the worker's last execution came to, until it is sent. -/
def Worker.pending : Worker → List (Nat × Outcome)
  | .over t r | .uncounted t r | .unsent t r => Outcome.executed [(t.ticket, r)]
  | .idle | .waiting _ | .admitted _ | .running _ _ | .stopped => []

theorem Worker.pending_over (t : Task) {r : Outcome} (h : r.isRefusal = false) :
    (Worker.over t r).pending = [(t.ticket, r)] := by
  change List.filter (fun p => !p.2.isRefusal) [(t.ticket, r)] = _
  rw [List.filter_singleton, h]
  rfl

/-- What the worker has executed, or is about to end, is in its hands. -/
theorem Worker.executing_sublist (w : Worker) :
    (w.pending.map Prod.fst ++ w.underway).Sublist (tickets w.held) := by
  have hpending (t : Task) (r : Outcome) :
      ((Outcome.executed [(t.ticket, r)]).map Prod.fst ++ []).Sublist (tickets [t]) := by
    rw [List.append_nil]
    exact List.filter_sublist.map Prod.fst
  cases w with
  | idle => exact List.Sublist.refl _
  | waiting t => exact List.nil_sublist _
  | admitted t => exact List.nil_sublist _
  | running t turn => exact List.Sublist.refl _
  | «over» t r => exact hpending t r
  | uncounted t r => exact hpending t r
  | unsent t r => exact hpending t r
  | stopped => exact List.Sublist.refl _

namespace Service

variable {σ : Type}

/-- The tickets that the service knows: answered, with the worker, or waiting. -/
def traced (s : Service σ) : List Nat :=
  s.mail.map (·.1) ++ tickets s.worker.held ++ tickets s.queue.waiting

/-- What executions came to, sent or not. -/
def outcomes (s : Service σ) : List (Nat × Outcome) := Outcome.executed s.mail ++ s.worker.pending

theorem count_traced (s : Service σ) (x : Nat) :
    s.traced.count x = (s.mail.map (·.1)).count x + (tickets s.worker.held).count x +
      (tickets s.queue.waiting).count x := by
  simp only [traced, List.count_append]

variable {s s' : Service σ}

/-- Each answer that is sent adds its ticket to those answered. -/
theorem count_mail (s : Service σ) (answers : List Answer) (h : s'.mail = (s.send answers).mail)
    (x : Nat) :
    (s'.mail.map (·.1)).count x =
      (s.mail.map (·.1)).count x + (tickets (answers.map (·.1))).count x := by
  rw [h, ← List.count_append]
  simp only [send, tickets, List.map_append, List.map_map, Function.comp_def]

theorem executed_mail {answers : List Answer} (h : s'.mail = (s.send answers).mail)
    (hrefused : ∀ a ∈ answers, a.2.isRefusal = true) :
    Outcome.executed s'.mail = Outcome.executed s.mail := by
  have hnone : Outcome.executed (answers.map fun a => (a.1.ticket, a.2)) = [] := by
    unfold Outcome.executed
    rw [List.filter_eq_nil_iff]
    intro p hp
    obtain ⟨a, ha, rfl⟩ := List.mem_map.1 hp
    dsimp only
    rw [hrefused a ha]
    exact Bool.false_ne_true
  have happend : Outcome.executed (s.send answers).mail =
      Outcome.executed s.mail ++ Outcome.executed (answers.map fun a => (a.1.ticket, a.2)) :=
    List.filter_append _ _
  rw [h, happend, hnone, List.append_nil]

/-- What a step of the worker does to the turns. -/
structure Worked (s s' : Service σ) : Prop where
  traced : s'.traced.Perm s.traced
  outcomes : s'.outcomes = s.outcomes ++ s'.worker.ended
  underway : s.worker.underway ++ s.worker.starting =
    s'.worker.ended.map (·.1) ++ s'.worker.underway
  numbered : s.queue.Numbered → s'.queue.Numbered
  nextTicket : s'.nextTicket = s.nextTicket

theorem worked_refl (hstarting : s.worker.starting = []) (hended : s.worker.ended = []) :
    Worked s s := by
  refine ⟨List.Perm.refl _, ?_, ?_, id, rfl⟩
  · rw [hended, List.append_nil]
  · rw [hstarting, hended, List.append_nil]
    rfl

/-- The worker goes on with its task, and the queue at most counts. -/
theorem worked_of_undisturbed {s₁ : Service σ} {w w' : Worker} (hw : s.worker = w)
    (h : s.Undisturbed s₁) (f : QueueCounters → QueueCounters) (hheld : w'.held = w.held)
    (hpending : w'.pending = w.pending ++ w'.ended)
    (hunderway : w.underway ++ w.starting = w'.ended.map (·.1) ++ w'.underway) :
    Worked s { s₁ with queue := s₁.queue.count f, worker := w' } := by
  subst hw
  have hwaiting : (s₁.queue.count f).waiting = s.queue.waiting := by
    rw [h.queue]
    rfl
  refine ⟨?_, ?_, hunderway, ?_, h.nextTicket⟩
  · unfold traced
    dsimp only
    rw [h.mail, hheld, hwaiting]
  · unfold outcomes
    dsimp only
    rw [h.mail, hpending, List.append_assoc]
  · intro hn
    rw [← h.queue] at hn
    exact ⟨hn.distinct, hn.below⟩

/-- The worker takes a task, if there is one, and late ones are answered. -/
theorem worked_of_dequeue (hidle : s.worker = .idle) (now : Nat)
    (hqueue : s'.queue = (s.queue.dequeue now).2.2)
    (hmail : s'.mail = (s.send (s.queue.dequeue now).2.1).mail)
    (hworker : s'.worker = (s.queue.dequeue now).1.elim .idle .waiting)
    (hnext : s'.nextTicket = s.nextTicket) : Worked s s' := by
  have hmoves := Queue.moves_dequeue s.queue now
  have hrefused (a : Answer) : a ∈ (s.queue.dequeue now).2.1 → a.2.isRefusal = true :=
    Queue.isRefusal_of_dequeue
  have hheld : s'.worker.held = (s.queue.dequeue now).1.toList := by
    rw [hworker]
    cases (s.queue.dequeue now).1 <;> rfl
  have hpending : s'.worker.pending = [] ∧ s'.worker.ended = [] ∧ s'.worker.underway = [] := by
    rw [hworker]
    cases (s.queue.dequeue now).1 <;> exact ⟨rfl, rfl, rfl⟩
  refine ⟨?_, ?_, ?_, ?_, hnext⟩
  · rw [List.perm_iff_count]
    intro x
    have hx := Books.count_moves hmoves x
    have hnone : (tickets s.worker.held).count x = 0 := by
      rw [hidle]
      rfl
    rw [Books.tickets_append, List.count_append, Books.tickets_nil, List.count_nil] at hx
    rw [count_traced, count_traced, count_mail s _ hmail, hheld, hqueue]
    omega
  · unfold outcomes
    rw [executed_mail hmail hrefused, hpending.1, hpending.2.1, hidle]
    exact (List.append_nil _).symm
  · rw [hidle, hpending.2.1, hpending.2.2]
    rfl
  · intro hn
    rw [hqueue]
    exact Queue.numbered_dequeue hn now

/-- The worker sends the outcome of its task. -/
theorem worked_of_unsent {t : Task} {r : Outcome} (h : s.worker = .unsent t r) :
    Worked s { s.send [(t, r)] with worker := .idle } := by
  refine ⟨?_, ?_, ?_, ?_, rfl⟩
  · rw [List.perm_iff_count]
    intro x
    have hmail : ((s.send [(t, r)]).mail.map (·.1)).count x =
        (s.mail.map (·.1)).count x + (tickets [t]).count x :=
      count_mail s [(t, r)] rfl x
    rw [count_traced, count_traced, h]
    change ((s.send [(t, r)]).mail.map (·.1)).count x + 0 + _ = _ + (tickets [t]).count x + _
    rw [hmail]
    rfl
  · unfold outcomes
    rw [h]
    change Outcome.executed (s.mail ++ [(t.ticket, r)]) ++ [] =
      Outcome.executed s.mail ++ Outcome.executed [(t.ticket, r)] ++ []
    unfold Outcome.executed
    rw [List.filter_append]
  · rw [h]
    rfl
  · exact id

section

variable [InferenceEngine σ]

theorem worked_workerStep (s : Service σ) (now : Nat) : Worked s (s.workerStep now) := by
  unfold workerStep
  cases hw : s.worker with
  | idle =>
    dsimp only
    split
    · split
      case h_1 t ht => exact worked_of_dequeue hw now rfl rfl (by rw [ht]; rfl) rfl
      case h_2 ht => exact worked_of_dequeue hw now rfl rfl (by rw [ht]; rfl) rfl
    · exact worked_of_undisturbed hw (undisturbed_refl s) id rfl rfl rfl
  | waiting t =>
    dsimp only
    split
    case h_1 gate _ =>
      have hgate : s.Undisturbed { s with gate } := ⟨rfl, rfl, rfl, rfl, rfl⟩
      exact worked_of_undisturbed hw hgate id rfl rfl rfl
    case h_2 =>
      split
      · exact worked_of_undisturbed hw (undisturbed_refl s) _ rfl rfl rfl
      · exact worked_refl (by rw [hw]; rfl) (by rw [hw]; rfl)
  | admitted t =>
    have hs := undisturbed_startTurn s now t.session t.prompt t.overrides
    dsimp only
    split
    case h_1 e s₁ h =>
      -- the execution is over before it came to the engine
      have hr : Outcome.isRefusal (.error e) = false := not_isRefusal_startTurn (by rw [h])
      rw [h] at hs
      exact worked_of_undisturbed hw hs id rfl (Worker.pending_over t hr) rfl
    case h_2 turn s₁ h =>
      rw [h] at hs
      exact worked_of_undisturbed hw hs id rfl rfl rfl
  | running t turn =>
    have hs := undisturbed_endTurn s now turn
    have hr := not_isRefusal_endTurn s now turn
    exact worked_of_undisturbed hw hs id rfl (Worker.pending_over t hr) rfl
  | «over» t r =>
    have hslot : s.Undisturbed s.releaseSlot := ⟨rfl, rfl, rfl, rfl, rfl⟩
    exact worked_of_undisturbed hw hslot id rfl (List.append_nil _).symm rfl
  | uncounted t r =>
    exact worked_of_undisturbed hw (undisturbed_refl s) _ rfl (List.append_nil _).symm rfl
  | unsent t r => exact worked_of_unsent hw
  | stopped => exact worked_refl (by rw [hw]; rfl) (by rw [hw]; rfl)

end

/-- What an admission does to the turns. -/
structure Entered (s : Service σ) (r : Except Error Admission × Service σ) : Prop where
  traced : r.2.traced.Perm (s.traced ++ Admission.queuedTickets r.1)
  worker : r.2.worker = s.worker
  executed : Outcome.executed r.2.mail = Outcome.executed s.mail
  numbered : s.queue.Numbered → r.2.queue.Numbered
  nextTicket : s.nextTicket ≤ r.2.nextTicket
  fresh : ∀ k ∈ Admission.queuedTickets r.1, s.nextTicket ≤ k ∧ k < r.2.nextTicket

/-- A task joins those waiting under its ticket, or is turned away without one. -/
theorem count_enqueue (q : Queue) (now : Nat) (t : Task) (x : Nat) :
    (tickets ((q.enqueue now t).2.1.map (·.1))).count x +
        (tickets (q.enqueue now t).2.2.waiting).count x =
      (Admission.queuedTickets ((.queued · t.ticket) <$> (q.enqueue now t).1)).count x +
        (tickets q.waiting).count x := by
  obtain haway | hin := Queue.enqueue_cases q now t
  · obtain ⟨e, he⟩ := haway.refused
    have hx := Books.count_moves haway.moves x
    rw [he]
    exact hx
  · obtain ⟨u, hu, hok, hmoves⟩ := hin.waits
    have hx := Books.count_moves hmoves x
    have hone : tickets [u] = [t.ticket] := congrArg (fun n => [n]) hu
    rw [hone] at hx
    rw [hok]
    exact hx

theorem mem_queuedTickets {r : Except Error TaskId} {ticket k : Nat}
    (h : k ∈ Admission.queuedTickets ((.queued · ticket) <$> r)) : k = ticket := by
  cases r with
  | error e => cases h
  | ok task => exact List.mem_singleton.1 h

theorem entered_enter (s : Service σ) (now : Nat) (id : SessionId) (prompt : String)
    (o : Overrides) : Entered s (s.enter now id prompt o) := by
  unfold enter
  cases s.gate.acquire? with
  | some gate =>
    refine ⟨?_, rfl, rfl, fun hn => hn, Nat.le_refl _, List.forall_mem_nil _⟩
    exact List.Perm.of_eq (List.append_nil _).symm
  | none =>
    dsimp only
    generalize ht : Task.withOverrides _ o = t
    have hid : t.id = 0 := by
      rw [← ht]
      rfl
    have hticket : t.ticket = s.nextTicket := by
      rw [← ht]
      rfl
    rw [← hticket]
    have hcount := count_enqueue s.queue now t
    have hrefused (a : Answer) : a ∈ (s.queue.enqueue now t).2.1 → a.2.isRefusal = true :=
      Queue.isRefusal_of_enqueue
    have hnumbered (hn : s.queue.Numbered) := Queue.numbered_enqueue hn now (.inl hid)
    generalize s.queue.enqueue now t = r at hcount hrefused hnumbered ⊢
    obtain ⟨r, answers, queue⟩ := r
    refine ⟨?_, rfl, executed_mail rfl hrefused, hnumbered, ?_, ?_⟩
    · rw [List.perm_iff_count]
      intro x
      have hx := hcount x
      have hmail := count_mail s answers rfl x
      rw [List.count_append, count_traced, count_traced]
      dsimp only [send] at hx hmail ⊢
      omega
    · rw [← hticket]
      exact Nat.le_succ _
    · intro k hk
      rw [mem_queuedTickets hk, ← hticket]
      exact ⟨Nat.le_refl _, Nat.lt_succ_self _⟩

end Service

end ChatInference
