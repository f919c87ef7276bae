import ChatInference.Proofs.Queue.Waiting
import Mathlib.Logic.Relation

/-!
The accounts of the queue over whole runs: in whatever order tasks are submitted, taken, withdrawn
and answered, each submitted task is in exactly one place, and the counters say how many are where.
-/

namespace ChatInference

def tickets (ts : List Task) : List Nat := ts.map (·.ticket)

/-- A queue, and by ticket what has become of each task submitted to it. -/
structure Books where
  queue : Queue
  submitted : List Nat := []
  rejected : List Nat := []
  cancelled : List Nat := []
  timedOut : List Nat := []
  completed : List Nat := []
  /-- Taken by a consumer, and neither completed nor timed out. -/
  taken : List Nat := []

namespace Books

def opened (l : Limits) : Books := { queue := .ofLimits l }

def enqueue (b : Books) (now : Nat) (t : Task) : Books :=
  let r := b.queue.enqueue now t
  { b with
    queue := r.2.2
    submitted := b.submitted ++ [t.ticket]
    timedOut := b.timedOut ++ tickets (r.2.1.map (·.1))
    rejected := match r.1 with
      | .ok _ => b.rejected
      | .error _ => b.rejected ++ [t.ticket] }

def serve (b : Books) (r : Option Task × List Answer × Queue) : Books :=
  { b with
    queue := r.2.2
    timedOut := b.timedOut ++ tickets (r.2.1.map (·.1))
    taken := b.taken ++ tickets r.1.toList }

def dequeue (b : Books) (now : Nat) : Books := b.serve (b.queue.dequeue now)

def tryDequeue (b : Books) (now : Nat) : Books := b.serve (b.queue.tryDequeue now)

def withdraw (b : Books) (gone : List Task) (queue : Queue) : Books :=
  { b with queue, cancelled := b.cancelled ++ tickets gone }

def cancel (b : Books) (id : TaskId) : Books :=
  let r := b.queue.cancel id
  b.withdraw (r.2.1 ++ r.1.toList) r.2.2

def cancelSession (b : Books) (session : SessionId) : Books :=
  let r := b.queue.cancelSession session
  b.withdraw r.1 r.2

def shutdown (b : Books) : Books :=
  let r := b.queue.shutdown
  b.withdraw (r.1.map (·.1)) r.2

def complete (b : Books) (ticket : Nat) : Books :=
  { b with
    queue := b.queue.markCompleted
    completed := b.completed ++ [ticket]
    taken := b.taken.erase ticket }

def timeOut (b : Books) (ticket : Nat) : Books :=
  { b with
    queue := b.queue.markTimedOut
    timedOut := b.timedOut ++ [ticket]
    taken := b.taken.erase ticket }

/-- One call at any time. A task is submitted once, and marked only while it is taken. -/
inductive Step : Books → Books → Prop
  | enqueue {b : Books} (now : Nat) (t : Task) (fresh : t.ticket ∉ b.submitted) :
      Step b (b.enqueue now t)
  | dequeue {b : Books} (now : Nat) : Step b (b.dequeue now)
  | tryDequeue {b : Books} (now : Nat) : Step b (b.tryDequeue now)
  | cancel {b : Books} (id : TaskId) : Step b (b.cancel id)
  | cancelSession {b : Books} (session : SessionId) : Step b (b.cancelSession session)
  | complete {b : Books} (ticket : Nat) (h : ticket ∈ b.taken) : Step b (b.complete ticket)
  | timeOut {b : Books} (ticket : Nat) (h : ticket ∈ b.taken) : Step b (b.timeOut ticket)
  | shutdown {b : Books} : Step b b.shutdown

abbrev Run : Books → Books → Prop := Relation.ReflTransGen Step

/-- Where the submitted tasks are. -/
def places (b : Books) : List Nat :=
  b.rejected ++ b.cancelled ++ b.timedOut ++ b.completed ++ tickets b.queue.waiting ++ b.taken

def tally (b : Books) : QueueCounters :=
  { submitted := b.submitted.length
    completed := b.completed.length
    timedOut := b.timedOut.length
    rejected := b.rejected.length
    cancelled := b.cancelled.length }

structure Balanced (rules : QueueRules) (b : Books) : Prop where
  terms : b.queue.rules = rules
  counters : b.queue.counters = b.tally
  places : b.submitted.Perm b.places
  distinct : b.submitted.Nodup
  room : b.queue.size ≤ rules.capacity

/-- Each submitted ticket is in as many places as it was submitted times. -/
theorem perm_places_iff {b : Books} : b.submitted.Perm b.places ↔
    ∀ x, b.submitted.count x = b.rejected.count x + b.cancelled.count x + b.timedOut.count x +
      b.completed.count x + (tickets b.queue.waiting).count x + b.taken.count x := by
  rw [List.perm_iff_count]
  simp only [Books.places, List.count_append]

theorem count_moves {q q' : Queue} {came gone : List Task} (h : Queue.Moves q came gone q')
    (x : Nat) : (tickets gone).count x + (tickets q'.waiting).count x =
      (tickets came).count x + (tickets q.waiting).count x := by
  -- a permutation of tasks is one of their tickets
  have hp := (h.waiting.map (·.ticket)).count_eq x
  rw [List.map_append, List.map_append, List.count_append, List.count_append] at hp
  exact hp

theorem length_tickets (ts : List Task) : (tickets ts).length = ts.length := by
  unfold tickets
  exact List.length_map _

theorem tickets_nil : tickets [] = [] := rfl

theorem tickets_append (ts us : List Task) : tickets (ts ++ us) = tickets ts ++ tickets us := by
  unfold tickets
  exact List.map_append

variable {rules : QueueRules} {b : Books}

theorem balanced_opened (l : Limits) : Balanced l.queueRules (opened l) :=
  ⟨rfl, rfl, List.Perm.refl _, List.nodup_nil, Nat.zero_le _⟩

theorem Balanced.room_of_moves (hb : Balanced rules b) {gone : List Task} {q' : Queue}
    (h : Queue.Moves b.queue [] gone q') : q'.size ≤ rules.capacity := by
  have hs := h.size_add
  have hr := hb.room
  rw [List.length_nil] at hs
  omega

theorem balanced_serve (hb : Balanced rules b) {r : Option Task × List Answer × Queue}
    (h : Queue.Moves b.queue [] (r.2.1.map (·.1) ++ r.1.toList) r.2.2)
    (hc : r.2.2.counters = { b.queue.counters with
      timedOut := b.queue.counters.timedOut + r.2.1.length }) :
    Balanced rules (b.serve r) := by
  refine ⟨h.rules.trans hb.terms, ?_, ?_, hb.distinct, hb.room_of_moves h⟩
  · change r.2.2.counters = _
    rw [hc, hb.counters]
    simp only [tally, serve, List.length_append, length_tickets, List.length_map]
  · apply perm_places_iff.2
    intro x
    have hx := count_moves h x
    have hp := perm_places_iff.1 hb.places x
    rw [tickets_append, List.count_append, tickets_nil, List.count_nil] at hx
    simp only [serve, List.count_append]
    omega

theorem balanced_withdraw (hb : Balanced rules b) {gone : List Task} {q' : Queue}
    (h : Queue.Moves b.queue [] gone q')
    (hc : q'.counters = { b.queue.counters with
      cancelled := b.queue.counters.cancelled + gone.length }) :
    Balanced rules (b.withdraw gone q') := by
  refine ⟨h.rules.trans hb.terms, ?_, ?_, hb.distinct, hb.room_of_moves h⟩
  · change q'.counters = _
    rw [hc, hb.counters]
    simp only [tally, withdraw, List.length_append, length_tickets]
  · apply perm_places_iff.2
    intro x
    have hx := count_moves h x
    have hp := perm_places_iff.1 hb.places x
    rw [tickets_nil, List.count_nil] at hx
    simp only [withdraw, List.count_append]
    omega

theorem nodup_submit (hb : Balanced rules b) {t : Task} (fresh : t.ticket ∉ b.submitted) :
    (b.submitted ++ [t.ticket]).Nodup := by
  rw [List.nodup_append]
  refine ⟨hb.distinct, by simp, ?_⟩
  intro x hx y hy hxy
  rw [List.mem_singleton.1 hy] at hxy
  exact fresh (hxy ▸ hx)

theorem balanced_enqueue (hb : Balanced rules b) (now : Nat) {t : Task}
    (fresh : t.ticket ∉ b.submitted) : Balanced rules (b.enqueue now t) := by
  have hdistinct := nodup_submit hb fresh
  unfold enqueue
  generalize hr : b.queue.enqueue now t = r
  have hcases := Queue.enqueue_cases b.queue now t
  rw [hr] at hcases
  obtain haway | hin := hcases
  · -- the ticket goes straight to the rejected ones
    obtain ⟨e, he⟩ := haway.refused
    have hm := haway.moves
    dsimp only
    rw [he]
    refine ⟨hm.rules.trans hb.terms, ?_, ?_, hdistinct, hb.room_of_moves hm⟩
    · change r.2.2.counters = _
      rw [haway.counters, hb.counters]
      simp only [tally, List.length_append, length_tickets, List.length_map, List.length_singleton]
    · apply perm_places_iff.2
      intro x
      have hx := count_moves hm x
      have hp := perm_places_iff.1 hb.places x
      rw [tickets_nil, List.count_nil] at hx
      simp only [List.count_append]
      omega
  · -- the ticket joins those waiting
    obtain ⟨u, hu, hok, hm⟩ := hin.waits
    have hroom := hin.room
    rw [hb.terms] at hroom
    dsimp only
    rw [hok]
    refine ⟨hm.rules.trans hb.terms, ?_, ?_, hdistinct, hroom⟩
    · change r.2.2.counters = _
      rw [hin.counters, hb.counters]
      simp only [tally, List.length_append, length_tickets, List.length_map, List.length_singleton]
    · apply perm_places_iff.2
      intro x
      have hx := count_moves hm x
      have hp := perm_places_iff.1 hb.places x
      have hone : tickets [u] = [t.ticket] := congrArg (fun n => [n]) hu
      rw [hone] at hx
      simp only [List.count_append]
      omega

theorem count_taken {x : Nat} (h : x ∈ b.taken) (y : Nat) :
    b.taken.count y = (b.taken.erase x).count y + [x].count y := by
  -- a mark takes the ticket out once
  have hp := (List.perm_cons_erase h).count_eq y
  have hc : ([x] ++ b.taken.erase x).count y = [x].count y + (b.taken.erase x).count y :=
    List.count_append
  change _ = ([x] ++ b.taken.erase x).count y at hp
  omega

theorem balanced_complete (hb : Balanced rules b) {x : Nat} (h : x ∈ b.taken) :
    Balanced rules (b.complete x) := by
  refine ⟨hb.terms, ?_, ?_, hb.distinct, hb.room⟩
  · change { b.queue.counters with completed := b.queue.counters.completed + 1 } = _
    rw [hb.counters]
    simp only [tally, complete, List.length_append, List.length_singleton]
  · apply perm_places_iff.2
    intro y
    have hx := count_taken h y
    have hp := perm_places_iff.1 hb.places y
    simp only [complete, List.count_append]
    change _ = _ + (tickets b.queue.waiting).count y + _
    omega

theorem balanced_timeOut (hb : Balanced rules b) {x : Nat} (h : x ∈ b.taken) :
    Balanced rules (b.timeOut x) := by
  refine ⟨hb.terms, ?_, ?_, hb.distinct, hb.room⟩
  · change { b.queue.counters with timedOut := b.queue.counters.timedOut + 1 } = _
    rw [hb.counters]
    simp only [tally, timeOut, List.length_append, List.length_singleton]
  · apply perm_places_iff.2
    intro y
    have hx := count_taken h y
    have hp := perm_places_iff.1 hb.places y
    simp only [timeOut, List.count_append]
    change _ = _ + (tickets b.queue.waiting).count y + _
    omega

theorem balanced_shutdown (hb : Balanced rules b) : Balanced rules b.shutdown := by
  -- only the queue's own flag changes before everything is withdrawn
  let c : Books := { b with queue := { b.queue with running := false } }
  have hc : Balanced rules c := ⟨hb.terms, hb.counters, hb.places, hb.distinct, hb.room⟩
  have hw := balanced_withdraw hc (Queue.moves_withdraw c.queue fun _ => true) rfl
  have hgone : b.queue.shutdown.1.map (·.1) = (c.queue.withdraw fun _ => true).1 := by
    change ((c.queue.withdraw fun _ => true).1.map Queue.cancelled).map (·.1) = _
    simp only [List.map_map, Queue.cancelled, Function.comp_def, List.map_id']
  unfold shutdown
  dsimp only
  rw [hgone]
  exact hw

theorem balanced_step {b' : Books} (h : Step b b') (hb : Balanced rules b) : Balanced rules b' := by
  cases h with
  | enqueue now t fresh => exact balanced_enqueue hb now fresh
  | dequeue now =>
    exact balanced_serve hb (Queue.moves_dequeue b.queue now) (Queue.counters_dequeue b.queue now)
  | tryDequeue now =>
    exact balanced_serve hb (Queue.moves_tryDequeue b.queue now)
      (Queue.counters_tryDequeue b.queue now)
  | cancel id =>
    exact balanced_withdraw hb (Queue.moves_cancel b.queue id) (Queue.counters_cancel b.queue id)
  | cancelSession session =>
    exact balanced_withdraw hb (Queue.moves_withdraw b.queue fun t => t.session == session) rfl
  | complete ticket h => exact balanced_complete hb h
  | timeOut ticket h => exact balanced_timeOut hb h
  | shutdown => exact balanced_shutdown hb

theorem balanced_run {b' : Books} (h : Run b b') (hb : Balanced rules b) : Balanced rules b' := by
  -- over the calls made so far
  induction h with
  | refl => exact hb
  | tail _ step ih => exact balanced_step step ih

/-- After the shutdown nobody waits, and nobody is let in. -/
def Shut (q : Queue) : Prop := q.running = false ∧ q.waiting = []

theorem shut_of_moves {q q' : Queue} {gone : List Task} (hq : Shut q)
    (h : Queue.Moves q [] gone q') : Shut q' :=
  ⟨h.running.trans hq.1, h.waiting_eq_nil hq.2⟩

theorem shut_step {b' : Books} (h : Step b b') (hb : Shut b.queue) : Shut b'.queue := by
  cases h with
  | enqueue now t fresh =>
    obtain haway | hin := Queue.enqueue_cases b.queue now t
    · exact shut_of_moves hb haway.moves
    · -- only a running queue lets a task in
      exact absurd (hb.1.symm.trans hin.running) Bool.false_ne_true
  | dequeue now => exact shut_of_moves hb (Queue.moves_dequeue b.queue now)
  | tryDequeue now => exact shut_of_moves hb (Queue.moves_tryDequeue b.queue now)
  | cancel id => exact shut_of_moves hb (Queue.moves_cancel b.queue id)
  | cancelSession session =>
    exact shut_of_moves hb (Queue.moves_withdraw b.queue fun t => t.session == session)
  | complete ticket h => exact hb
  | timeOut ticket h => exact hb
  | shutdown => exact ⟨rfl, Queue.waiting_shutdown b.queue⟩

theorem shut_run {b' : Books} (h : Run b.shutdown b') : Shut b'.queue := by
  induction h with
  | refl => exact ⟨rfl, Queue.waiting_shutdown b.queue⟩
  | tail _ step ih => exact shut_step step ih

theorem length_submitted (hb : Balanced rules b) :
    b.submitted.length = b.rejected.length + b.cancelled.length + b.timedOut.length +
      b.completed.length + b.queue.size + b.taken.length := by
  have hlen := hb.places.length_eq
  simp only [places, List.length_append, length_tickets] at hlen
  rw [Queue.size_eq_length_waiting]
  exact hlen

theorem active_eq (hb : Balanced rules b) : b.queue.active = b.queue.size + b.taken.length := by
  have hlen := length_submitted hb
  unfold Queue.active
  rw [hb.counters]
  dsimp only [tally]
  omega

theorem not_waiting_of_rejected (hb : Balanced rules b) {t : Task} (ht : t ∈ b.queue.waiting) :
    t.ticket ∉ b.rejected := by
  intro hr
  -- a ticket in both places would be counted twice
  have hd := hb.places.nodup_iff.1 hb.distinct
  have hw : t.ticket ∈ tickets b.queue.waiting := List.mem_map_of_mem ht
  have hone := List.nodup_iff_count.1 hd t.ticket
  have hcr := List.count_pos_iff.2 hr
  have hcw := List.count_pos_iff.2 hw
  simp only [places, List.count_append] at hone
  omega

/-- In every run of the queue the counters add up, and each submitted task is in exactly one place:
turned away, withdrawn, late, answered, waiting, or taken and not marked yet. Those waiting are
never more than the queue holds, and after a shutdown there are none. -/
theorem every_task_in_one_place (l : Limits) (b : Books) (h : Run (opened l) b) :
    b.queue.counters.submitted =
        b.queue.counters.rejected + b.queue.counters.cancelled + b.queue.counters.timedOut +
          b.queue.counters.completed + b.queue.size + b.taken.length ∧
      b.queue.active = b.queue.size + b.taken.length ∧
      b.queue.size ≤ l.queueRules.capacity ∧
      b.queue.counters = b.tally ∧ b.submitted.Perm b.places ∧ b.places.Nodup ∧
      (∀ t ∈ b.queue.waiting, t.ticket ∉ b.rejected) ∧
      ∀ b', Run b.shutdown b' → b'.queue.waiting = [] := by
  have hb : Balanced l.queueRules b := balanced_run h (balanced_opened l)
  refine ⟨?_, active_eq hb, hb.room, hb.counters, hb.places, hb.places.nodup_iff.1 hb.distinct,
    fun t ht => not_waiting_of_rejected hb ht, fun b' h' => (shut_run h').2⟩
  rw [hb.counters]
  exact length_submitted hb

/-- Room for two tasks. -/
def narrow : Limits := { queueSize := 2, queueReject := 2 }

/-- One task is answered, the third turned away, the fifth is late, the others are withdrawn. -/
def busyDay : Books :=
  let task (ticket : Nat) (session : SessionId) : Task :=
    { session, deadline := 20, prompt := "Hi", ticket }
  let morning := (((opened narrow).enqueue 0 (task 1 1)).enqueue 0 (task 2 2)).enqueue 0 (task 3 3)
  let noon := (((morning.dequeue 5).complete 1).enqueue 6 (task 4 2)).cancelSession 2
  (((noon.enqueue 7 (task 5 1)).tryDequeue 30).enqueue 8 (task 6 1)).shutdown

theorem every_task_in_one_place_busyDay :
    Run (opened narrow) busyDay ∧ busyDay.places = [3, 2, 4, 6, 5, 1] ∧
      busyDay.submitted.Perm busyDay.places ∧ busyDay.queue.active = 0 := by
  have hrun : Run (opened narrow) busyDay :=
    ((((((((((Relation.ReflTransGen.refl.tail (.enqueue 0 _ (by decide))).tail
      (.enqueue 0 _ (by decide))).tail (.enqueue 0 _ (by decide))).tail (.dequeue 5)).tail
      (.complete 1 (by decide))).tail (.enqueue 6 _ (by decide))).tail (.cancelSession 2)).tail
      (.enqueue 7 _ (by decide))).tail (.tryDequeue 30)).tail (.enqueue 8 _ (by decide))).tail
      .shutdown
  have h := every_task_in_one_place narrow busyDay hrun
  exact ⟨hrun, by decide, h.2.2.2.2.1, h.2.1⟩

end Books

end ChatInference
