import ChatInference.Proofs.Service.Admission
import ChatInference.Proofs.Service.Mailroom

/-!
The work that a load waits for. It is a number read off the queue's counters and the gate, and a task
on its way through the worker is seen by the one, by the other, or by both; here it is shown never to
be seen by neither. So the number is zero exactly where nothing is left: no task waits, the worker has
none that is still to be counted, and no permit is out.
-/

namespace ChatInference

namespace Queue

/-- The counters leave `taken` tasks besides those that wait: taken out of the queue, and not counted
as completed or late. -/
def Owes (q : Queue) (taken : Nat) : Prop :=
  q.counters.submitted =
    q.counters.completed + q.counters.timedOut + q.counters.rejected + q.counters.cancelled +
      (q.size + taken)

variable {q q' : Queue} {taken : Nat}

theorem owes_ofLimits (l : Limits) : Owes (ofLimits l) 0 := rfl

theorem Owes.active_eq (h : q.Owes taken) : q.active = q.size + taken := by
  unfold Owes at h
  unfold active
  omega

theorem owes_enqueue (h : q.Owes taken) (now : Nat) (t : Task) :
    (q.enqueue now t).2.2.Owes taken := by
  unfold Owes at h ⊢
  obtain haway | hin := enqueue_cases q now t
  · -- turned away: counted twice, and those that were late meanwhile have left
    have hsize := haway.moves.size_add
    rw [haway.counters]
    dsimp only
    simp only [List.length_map, List.length_nil] at hsize
    omega
  · obtain ⟨u, -, -, hmoves⟩ := hin.waits
    have hsize := hmoves.size_add
    rw [hin.counters]
    dsimp only
    simp only [List.length_map, List.length_singleton] at hsize
    omega

/-- The consumer has the task that the queue has let go of. -/
theorem owes_dequeue (h : q.Owes taken) (now : Nat) :
    (q.dequeue now).2.2.Owes (taken + (q.dequeue now).1.toList.length) := by
  unfold Owes at h ⊢
  have hsize := (moves_dequeue q now).size_add
  rw [counters_dequeue]
  dsimp only
  simp only [List.length_append, List.length_map, List.length_nil] at hsize
  omega

theorem owes_withdraw (h : q.Owes taken) (p : Task → Bool) : (q.withdraw p).2.Owes taken := by
  have hsize := (moves_withdraw q p).size_add
  have hcounters : (q.withdraw p).2.counters =
      { q.counters with cancelled := q.counters.cancelled + (q.withdraw p).1.length } := rfl
  unfold Owes at h ⊢
  rw [hcounters]
  dsimp only
  rw [List.length_nil] at hsize
  omega

theorem owes_shutdown (h : q.Owes taken) : q.shutdown.2.Owes taken :=
  owes_withdraw (q := { q with running := false }) h fun _ => true

theorem owes_markCompleted (h : q.Owes (taken + 1)) : q.markCompleted.Owes taken := by
  have hcounters : q.markCompleted.counters =
      { q.counters with completed := q.counters.completed + 1 } := rfl
  have hsize : q.markCompleted.size = q.size := rfl
  unfold Owes at h ⊢
  rw [hcounters, hsize]
  dsimp only
  omega

theorem owes_markTimedOut (h : q.Owes (taken + 1)) : q.markTimedOut.Owes taken := by
  have hcounters : q.markTimedOut.counters =
      { q.counters with timedOut := q.counters.timedOut + 1 } := rfl
  have hsize : q.markTimedOut.size = q.size := rfl
  unfold Owes at h ⊢
  rw [hcounters, hsize]
  dsimp only
  omega

end Queue

/-- The task of the worker, as long as the queue has not counted it as completed or late. -/
def Worker.unmarked : Worker → List Task
  | .waiting t | .admitted t | .running t _ | .over t _ | .uncounted t _ => [t]
  | .idle | .unsent _ _ | .stopped => []

namespace Service

variable {σ : Type} {s s' : Service σ}

/-- The queue leaves the worker the task that it has, and no other. -/
def InHand (s : Service σ) : Prop := s.queue.Owes s.worker.unmarked.length

theorem InHand.owes (h : s.InHand) {w : Worker} (hw : s.worker = w) :
    s.queue.Owes w.unmarked.length := by
  rw [← hw]
  exact h

theorem InHand.undisturbed (h : s.InHand) (hs : s.Undisturbed s') : s'.InHand := by
  unfold InHand
  rw [hs.queue, hs.worker]
  exact h

theorem inHand_enter (h : s.InHand) (now : Nat) (id : SessionId) (prompt : String)
    (o : Overrides) : (s.enter now id prompt o).2.InHand := by
  unfold enter
  cases s.gate.acquire? with
  | some gate => exact h
  | none =>
    dsimp only
    generalize Task.withOverrides _ o = t
    have hqueued := Queue.owes_enqueue h now t
    generalize s.queue.enqueue now t = r at hqueued ⊢
    exact hqueued

variable [InferenceEngine σ]

/-- The worker has its task until it has told the queue. -/
theorem inHand_workerStep (h : s.InHand) (now : Nat) : (s.workerStep now).InHand := by
  -- the worker goes on with its task, and the queue is as it was
  have hkept {s₁ : Service σ} {w : Worker} (hs : s.Undisturbed s₁)
      (hw : w.unmarked = s.worker.unmarked) : InHand { s₁ with worker := w } := by
    unfold InHand
    dsimp only
    rw [hs.queue, hw]
    exact h
  have hsame := undisturbed_refl s
  unfold workerStep
  cases hw : s.worker with
  | idle =>
    have htaken := Queue.owes_dequeue (h.owes hw) now
    dsimp only [Worker.unmarked, List.length_nil] at htaken
    rw [Nat.zero_add] at htaken
    dsimp only
    split
    case isFalse => exact hkept hsame (by rw [hw]; rfl)
    case isTrue =>
      split
      case h_1 t ht =>
        rw [ht] at htaken
        exact htaken
      case h_2 ht =>
        rw [ht] at htaken
        exact htaken
  | waiting t =>
    dsimp only
    split
    case h_1 gate _ => exact hkept (w := .admitted t) ⟨rfl, rfl, rfl, rfl, rfl⟩ (by rw [hw]; rfl)
    case h_2 =>
      split
      · exact Queue.owes_markTimedOut (h.owes hw)
      · exact h
  | admitted t =>
    have hs := undisturbed_startTurn s now t.session t.prompt t.overrides
    dsimp only
    split
    case h_1 e s₁ he =>
      rw [he] at hs
      exact hkept hs (by rw [hw]; rfl)
    case h_2 turn s₁ he =>
      rw [he] at hs
      exact hkept hs (by rw [hw]; rfl)
  | running t turn => exact hkept (undisturbed_endTurn s now turn) (by rw [hw]; rfl)
  | «over» t r =>
    have hslot : s.Undisturbed s.releaseSlot := ⟨rfl, rfl, rfl, rfl, rfl⟩
    exact hkept hslot (by rw [hw]; rfl)
  | uncounted t r =>
    -- the one step in which the queue hears of the task
    exact Queue.owes_markCompleted (h.owes hw)
  | unsent t r =>
    have hdone : s.queue.Owes 0 := h.owes hw
    exact hdone
  | stopped => exact h

end Service

namespace Mailroom

variable {σ : Type} [InferenceEngine σ] {m m' : Mailroom σ}

theorem inHand_step (hs : Step m m') (h : m.service.InHand) : m'.service.InHand := by
  cases hs with
  | enter now id prompt o => exact Service.inHand_enter h now id prompt o
  | work now => exact Service.inHand_workerStep h now
  | cancelTask id => exact Queue.owes_withdraw h fun t => t.id == id
  | cancelSession id => exact Queue.owes_withdraw h fun t => t.session == id
  | shutdown => exact Queue.owes_shutdown h
  | answer i =>
    unfold answer
    split
    · exact h
    · exact h
  | elsewhere hs _ =>
    have hin := h.undisturbed hs
    exact hin

theorem inHand_run (hr : Run m m') (h : m.service.InHand) : m'.service.InHand := by
  -- over the steps taken so far
  induction hr with
  | refl => exact h
  | tail _ step ih => exact inHand_step step ih

end Mailroom

namespace World

variable {σ : Type} {l : Limits} {w w' : World σ}

/-- What a poll comes to that looks at the queue first and at the gate later. -/
theorem poll_eq (hin : w.service.InHand) (hstep : InStep l w') :
    w.service.queue.active + w'.service.gate.inFlight =
      w.service.queue.waiting.length + w.service.worker.unmarked.length + w'.permits := by
  rw [hin.active_eq, Queue.size_eq_length_waiting, hstep.permits]

variable [InferenceEngine σ]

/-- A step of the calls and the worker, or one of what else happens to a queue: a waiting task is
taken back, a session loses its tasks, the queue ends its service, or tasks are answered. -/
inductive Stride : World σ → World σ → Prop
  | step {w w' : World σ} (h : Step w w') : Stride w w'
  | cancelTask {w : World σ} (id : TaskId) :
      Stride w { w with service := { w.service with queue := (w.service.queue.cancel id).2.2 } }
  | cancelSession {w : World σ} (id : SessionId) :
      Stride w { w with service := { w.service with queue := (w.service.queue.cancelSession id).2 } }
  | closeQueue {w : World σ} :
      Stride w { w with service := { w.service with queue := w.service.queue.shutdown.2 } }
  | answer {w : World σ} (answers : List Answer) :
      Stride w { w with service := w.service.send answers }

/-- Strides in any number and order. -/
abbrev Strides : World σ → World σ → Prop := Relation.ReflTransGen Stride

theorem inStep_stride (hs : Stride w w') (h : InStep l w) : InStep l w' := by
  -- what happens to the queue alone leaves the gate, the permits and the sessions as they are
  have hsame := SessionTable.sameIds_refl w.service.sessions
  cases hs with
  | step hs => exact inStep_step hs h
  | cancelTask id => exact inStep_quiet h ⟨rfl, rfl, rfl, hsame⟩
  | cancelSession id => exact inStep_quiet h ⟨rfl, rfl, rfl, hsame⟩
  | closeQueue => exact inStep_quiet h ⟨rfl, rfl, rfl, hsame⟩
  | answer answers => exact inStep_quiet h ⟨rfl, rfl, rfl, hsame⟩

theorem inHand_stride (hs : Stride w w') (h : w.service.InHand) : w'.service.InHand := by
  cases hs with
  | step hs =>
    obtain ⟨m, hrun, hm, -⟩ := Mailroom.reaches_step (m := { service := w.service }) hs rfl
    rw [← hm]
    exact Mailroom.inHand_run hrun h
  | cancelTask id => exact Queue.owes_withdraw h fun t => t.id == id
  | cancelSession id => exact Queue.owes_withdraw h fun t => t.session == id
  | closeQueue => exact Queue.owes_shutdown h
  | answer answers => exact h

theorem inStep_strides (hr : Strides w w') (h : InStep l w) : InStep l w' := by
  -- over the strides taken so far
  induction hr with
  | refl => exact h
  | tail _ stride ih => exact inStep_stride stride ih

theorem inHand_strides (hr : Strides w w') (h : w.service.InHand) : w'.service.InHand := by
  -- over the strides taken so far
  induction hr with
  | refl => exact h
  | tail _ stride ih => exact inHand_stride stride ih

/-- At every point of every run, a load is let through exactly where nothing is left: no task waits,
the worker has none that is still to be counted, and no permit is out. A poll that looks at the queue now
and at the gate only later is exact on what each of its looks is for, the tasks at the first and the permits
at the second; it does not see a turn that is queued in between, and can come to zero while that one waits. -/
theorem outstanding_eq_zero_iff (config : ServiceConfig) (e : σ)
    (hrun : Strides (opened config e) w) (hlater : Strides w w') :
    (w.service.outstanding = 0 ↔
        w.service.queue.waiting = [] ∧ w.service.worker.unmarked = [] ∧ w.permits = 0) ∧
      (w.service.queue.active + w'.service.gate.inFlight = 0 ↔
        w.service.queue.waiting = [] ∧ w.service.worker.unmarked = [] ∧ w'.permits = 0) := by
  have hin : w.service.InHand := inHand_strides hrun (Queue.owes_ofLimits _)
  have hnow := inStep_strides hrun (inStep_opened config e)
  have hafter := inStep_strides hlater hnow
  have hzero (waiting unmarked : List Task) (permits : Nat) :
      waiting.length + unmarked.length + permits = 0 ↔
        waiting = [] ∧ unmarked = [] ∧ permits = 0 := by
    rw [Nat.add_eq_zero_iff, Nat.add_eq_zero_iff, List.length_eq_zero_iff, List.length_eq_zero_iff,
      and_assoc]
  constructor
  · unfold Service.outstanding
    rw [poll_eq hin hnow]
    exact hzero _ _ _
  · rw [poll_eq hin hafter]
    exact hzero _ _ _

/-- A turn has the only slot and a second one is queued; then the first is over and gone. -/
def leftWaiting : World RehearsedEngine :=
  let queued := ((opened single {}).enter 1 7 "Hi" {}).enter 2 7 "Go on" {}
  (queued.turnStep 0 3).turnStep 0 4

theorem strides_leftWaiting : Strides (opened single {}) leftWaiting :=
  (((Relation.ReflTransGen.refl.tail (.step (.enter 1 7 "Hi" {}))).tail
    (.step (.enter 2 7 "Go on" {}))).tail (.step (.turn 0 3))).tail (.step (.turn 0 4))

/-- The worker takes the second turn. -/
def handedOver : World RehearsedEngine :=
  { leftWaiting with service := leftWaiting.service.workerStep 5 }

/-- The worker gets the slot, its turn fails for want of a model, it gives the slot back and counts
its task. -/
def counted : World RehearsedEngine :=
  { handedOver with
    service := (List.range 4).foldl (fun s i => s.workerStep (6 + i)) handedOver.service }

/-- Between the queue and the gate, where neither has the task, the load waits all the same. -/
theorem load_waits_while_handed_over :
    handedOver.service.queue.waiting = [] ∧ handedOver.permits = 0 ∧
      handedOver.service.outstanding ≠ 0 ∧ counted.service.outstanding = 0 := by
  have hover : Strides (opened single {}) handedOver := strides_leftWaiting.tail (.step (.worker 5))
  have hcounted : Strides handedOver counted :=
    (((Relation.ReflTransGen.refl.tail (.step (.worker 6))).tail (.step (.worker 7))).tail
      (.step (.worker 8))).tail (.step (.worker 9))
  have hnow := (outstanding_eq_zero_iff single {} hover hcounted).1
  have hlater := (outstanding_eq_zero_iff (w := counted) single {} (hover.trans hcounted) .refl).1
  refine ⟨rfl, rfl, ?_, hlater.2 ⟨rfl, rfl, rfl⟩⟩
  intro hzero
  obtain ⟨-, hnone, -⟩ := hnow.1 hzero
  cases hnone

/-- The queue is looked at before either turn comes, and the gate once the first is gone: the poll comes
to zero, and the second turn waits. -/
theorem poll_overlooks_turn_queued_between :
    ∃ w w' : World RehearsedEngine, Strides (opened single {}) w ∧ Strides w w' ∧
      w.service.queue.active + w'.service.gate.inFlight = 0 ∧
      w'.service.queue.waiting.map (·.prompt) = ["Go on"] ∧ w'.service.outstanding = 1 :=
  ⟨opened single {}, leftWaiting, .refl, strides_leftWaiting, rfl, rfl, rfl⟩

end World

end ChatInference
