import ChatInference.Queue.Basic
import Mathlib.Data.List.Perm.Basic

/-!
What each operation of the queue does to the tasks that wait in it. An operation moves tasks: some
come, some go, and the others stay; nothing else about the waiting tasks changes but their order.
-/

namespace ChatInference.Queue

theorem size_eq_length_waiting (q : Queue) : q.size = q.waiting.length := by
  simp only [size, waiting, List.length_append]

theorem waiting_keep (q : Queue) (p : Task → Bool) : (q.keep p).waiting = q.waiting.filter p := by
  simp only [keep, waiting, List.filter_append]

/-- From `q` to `q'` the tasks `came` were added to those waiting and the tasks `gone` taken out. -/
structure Moves (q : Queue) (came gone : List Task) (q' : Queue) : Prop where
  rules : q'.rules = q.rules
  running : q'.running = q.running
  waiting : (gone ++ q'.waiting).Perm (came ++ q.waiting)

namespace Moves

theorem refl (q : Queue) : Moves q [] [] q := ⟨rfl, rfl, List.Perm.refl _⟩

theorem of_count_left {q q' : Queue} {came gone : List Task} {f : QueueCounters → QueueCounters}
    (h : Moves (q.count f) came gone q') : Moves q came gone q' :=
  ⟨h.rules, h.running, h.waiting⟩

theorem count_right {q q' : Queue} {came gone : List Task} (h : Moves q came gone q')
    (f : QueueCounters → QueueCounters) : Moves q came gone (q'.count f) :=
  ⟨h.rules, h.running, h.waiting⟩

theorem trans {q q' q'' : Queue} {came came' gone gone' : List Task} (h : Moves q came gone q')
    (h' : Moves q' came' gone' q'') : Moves q (came' ++ came) (gone ++ gone') q'' := by
  refine ⟨h'.rules.trans h.rules, h'.running.trans h.running, ?_⟩
  -- those that left first stay out, those that came first move past them
  have hleft : (gone ++ (gone' ++ q''.waiting)).Perm (gone ++ (came' ++ q'.waiting)) :=
    h'.waiting.append_left gone
  have hswap : (gone ++ (came' ++ q'.waiting)).Perm (came' ++ (gone ++ q'.waiting)) :=
    List.perm_append_comm_assoc gone came' q'.waiting
  have hright : (came' ++ (gone ++ q'.waiting)).Perm (came' ++ (came ++ q.waiting)) :=
    h.waiting.append_left came'
  rw [List.append_assoc, List.append_assoc]
  exact hleft.trans (hswap.trans hright)

theorem mem {q q' : Queue} {came gone : List Task} {t : Task} (h : Moves q came gone q')
    (ht : t ∈ q'.waiting) : t ∈ came ∨ t ∈ q.waiting :=
  List.mem_append.1 (h.waiting.subset (List.mem_append_right _ ht))

theorem size_add {q q' : Queue} {came gone : List Task} (h : Moves q came gone q') :
    gone.length + q'.size = came.length + q.size := by
  have hl := h.waiting.length_eq
  rw [List.length_append, List.length_append] at hl
  rw [size_eq_length_waiting, size_eq_length_waiting]
  exact hl

/-- Where none wait and none come, none wait afterwards. -/
theorem waiting_eq_nil {q q' : Queue} {gone : List Task} (h : Moves q [] gone q')
    (hq : q.waiting = []) : q'.waiting = [] := by
  have hs := h.size_add
  rw [size_eq_length_waiting, size_eq_length_waiting, hq, List.length_nil] at hs
  apply List.eq_nil_of_length_eq_zero
  omega

end Moves

theorem moves_keep (q : Queue) (p : Task → Bool) :
    Moves q [] (q.waiting.filter p) (q.keep fun t => !p t) := by
  refine ⟨rfl, rfl, ?_⟩
  rw [waiting_keep]
  exact List.filter_append_perm p q.waiting

theorem purge_expired (q : Queue) (now : Nat) :
    (q.purge now).1.map (·.1) = q.waiting.filter (·.isExpired now) := by
  simp only [purge, expiry, List.map_map, Function.comp_def, List.map_id']

theorem moves_purge (q : Queue) (now : Nat) :
    Moves q [] ((q.purge now).1.map (·.1)) (q.purge now).2 := by
  rw [purge_expired]
  unfold purge
  dsimp only
  apply Moves.count_right
  exact moves_keep q fun t => t.isExpired now

theorem counters_purge (q : Queue) (now : Nat) :
    (q.purge now).2.counters =
      { q.counters with timedOut := q.counters.timedOut + (q.purge now).1.length } := by
  simp only [purge, count, keep, List.length_map]

theorem moves_withdraw (q : Queue) (p : Task → Bool) :
    Moves q [] (q.withdraw p).1 (q.withdraw p).2 := by
  unfold withdraw
  dsimp only
  apply Moves.count_right
  exact moves_keep q p

/-- What a call by id hands back and what it drops are together what it withdrew. -/
theorem cancel_gone (q : Queue) (id : TaskId) :
    (q.cancel id).2.1 ++ (q.cancel id).1.toList = (q.withdraw fun t => t.id == id).1 := by
  unfold cancel
  dsimp only
  cases h : (q.withdraw fun t => t.id == id).1.getLast? with
  | none => simp only [List.getLast?_eq_none_iff.1 h, List.dropLast_nil, Option.toList_none,
      List.append_nil]
  | some t => exact List.dropLast_append_getLast? t h

theorem moves_cancel (q : Queue) (id : TaskId) :
    Moves q [] ((q.cancel id).2.1 ++ (q.cancel id).1.toList) (q.cancel id).2.2 := by
  rw [cancel_gone]
  exact moves_withdraw q fun t => t.id == id

theorem counters_cancel (q : Queue) (id : TaskId) :
    (q.cancel id).2.2.counters =
      { q.counters with
        cancelled := q.counters.cancelled + ((q.cancel id).2.1 ++ (q.cancel id).1.toList).length } := by
  rw [cancel_gone]
  rfl

theorem waiting_shutdown (q : Queue) : q.shutdown.2.waiting = [] := by
  simp [shutdown, withdraw, count, waiting, keep]

theorem moves_push (q : Queue) (t : Task) : Moves q [t] [] (q.push t) := by
  -- in each tier the task moves over what stands before it
  have hurgent : (q.urgent ++ [t] ++ q.normal ++ q.low).Perm
      (t :: (q.urgent ++ q.normal ++ q.low)) := by
    simp only [List.append_assoc]
    exact List.perm_middle
  have hnormal : (q.urgent ++ (q.normal ++ [t]) ++ q.low).Perm
      (t :: (q.urgent ++ q.normal ++ q.low)) := by
    rw [← List.append_assoc, List.append_assoc _ [t]]
    exact List.perm_middle
  have hlow : (q.urgent ++ q.normal ++ (q.low ++ [t])).Perm
      (t :: (q.urgent ++ q.normal ++ q.low)) := by
    rw [← List.append_assoc]
    exact List.perm_append_singleton t _
  unfold push
  split
  · exact ⟨rfl, rfl, hurgent⟩
  · exact ⟨rfl, rfl, hnormal⟩
  · exact ⟨rfl, rfl, hnormal⟩
  · exact ⟨rfl, rfl, hlow⟩

theorem counters_push (q : Queue) (t : Task) : (q.push t).counters = q.counters := by
  unfold push
  split <;> rfl

theorem moves_assignId (q : Queue) (t : Task) : Moves q [] [] (q.assignId t).2 := by
  unfold assignId
  split
  · exact ⟨rfl, rfl, List.Perm.refl _⟩
  · exact ⟨rfl, rfl, List.Perm.refl _⟩

theorem counters_assignId (q : Queue) (t : Task) : (q.assignId t).2.counters = q.counters := by
  unfold assignId
  split <;> rfl

theorem assignId_ticket (q : Queue) (t : Task) : (q.assignId t).1.ticket = t.ticket := by
  unfold assignId
  split <;> rfl

theorem takePreferred_perm {p : Task → Bool} {tier rest : List Task} {t : Task}
    (h : takePreferred p tier = some (t, rest)) : tier.Perm (t :: rest) := by
  unfold takePreferred at h
  split at h
  case h_1 i _ =>
    obtain ⟨u, hu, he⟩ := Option.map_eq_some_iff.1 h
    cases he
    obtain ⟨hi, rfl⟩ := List.getElem?_eq_some_iff.1 hu
    exact (List.getElem_cons_eraseIdx_perm hi).symm
  case h_2 =>
    obtain ⟨u, hu, he⟩ := Option.map_eq_some_iff.1 h
    cases he
    rw [List.eq_cons_of_mem_head? hu]
    exact List.Perm.refl _

/-- The task that is served was waiting, and nobody else leaves. -/
theorem moves_pop (q : Queue) : Moves q [] q.pop.1.toList q.pop.2 := by
  -- the task comes from the first tier that is not empty, and the others stay
  unfold pop
  split
  case h_1 t rest h =>
    refine ⟨rfl, rfl, ?_⟩
    have hp := ((takePreferred_perm h).symm.append_right q.normal).append_right q.low
    exact hp
  case h_2 =>
    split
    case h_1 t rest h =>
      refine ⟨rfl, rfl, ?_⟩
      have hm : (t :: (q.urgent ++ rest)).Perm (q.urgent ++ t :: rest) := List.perm_middle.symm
      have hp := (takePreferred_perm h).symm.append_left q.urgent
      exact (hm.trans hp).append_right q.low
    case h_2 =>
      split
      case h_1 t rest h =>
        refine ⟨rfl, rfl, ?_⟩
        have hm : (t :: (q.urgent ++ q.normal ++ rest)).Perm (q.urgent ++ q.normal ++ t :: rest) :=
          List.perm_middle.symm
        have hp := (takePreferred_perm h).symm.append_left (q.urgent ++ q.normal)
        exact hm.trans hp
      case h_2 => exact Moves.refl q

theorem counters_pop (q : Queue) : q.pop.2.counters = q.counters := by
  unfold pop
  split
  · rfl
  · split
    · rfl
    · split <;> rfl

theorem moves_tryDequeue (q : Queue) (now : Nat) :
    Moves q [] ((q.tryDequeue now).2.1.map (·.1) ++ (q.tryDequeue now).1.toList)
      (q.tryDequeue now).2.2 :=
  (moves_purge q now).trans (moves_pop (q.purge now).2)

theorem counters_tryDequeue (q : Queue) (now : Nat) :
    (q.tryDequeue now).2.2.counters =
      { q.counters with timedOut := q.counters.timedOut + (q.tryDequeue now).2.1.length } := by
  have hpop : (q.tryDequeue now).2.2.counters = (q.purge now).2.counters :=
    counters_pop (q.purge now).2
  rw [hpop, counters_purge]
  rfl

theorem dequeue_of_running {q : Queue} (h : q.running = true) (now : Nat) :
    q.dequeue now = q.tryDequeue now :=
  if_pos h

theorem dequeue_of_stopped {q : Queue} (h : q.running = false) (now : Nat) :
    q.dequeue now = (none, [], q) :=
  if_neg (Bool.eq_false_iff.1 h)

theorem moves_dequeue (q : Queue) (now : Nat) :
    Moves q [] ((q.dequeue now).2.1.map (·.1) ++ (q.dequeue now).1.toList) (q.dequeue now).2.2 := by
  unfold dequeue
  split
  · exact moves_tryDequeue q now
  · exact Moves.refl q

theorem counters_dequeue (q : Queue) (now : Nat) :
    (q.dequeue now).2.2.counters =
      { q.counters with timedOut := q.counters.timedOut + (q.dequeue now).2.1.length } := by
  unfold dequeue
  split
  · exact counters_tryDequeue q now
  · rfl

/-- What a submission removes first. -/
def tidy (q : Queue) (now : Nat) : List Answer × Queue :=
  if q.rules.purgeOnEnqueue then q.purge now else ([], q)

theorem moves_tidy (q : Queue) (now : Nat) :
    Moves q [] ((q.tidy now).1.map (·.1)) (q.tidy now).2 := by
  unfold tidy
  split
  · exact moves_purge q now
  · exact Moves.refl q

theorem counters_tidy (q : Queue) (now : Nat) :
    (q.tidy now).2.counters =
      { q.counters with timedOut := q.counters.timedOut + (q.tidy now).1.length } := by
  unfold tidy
  split
  · exact counters_purge q now
  · rfl

def countSubmitted (q : Queue) : Queue := q.count fun c => { c with submitted := c.submitted + 1 }

theorem enqueue_of_stopped {q : Queue} (h : q.running = false) (now : Nat) (t : Task) :
    q.enqueue now t =
      ((q.countSubmitted.reject "task queue is shut down").1, [],
        (q.countSubmitted.reject "task queue is shut down").2) := by
  have hs : ¬ q.countSubmitted.running = true := by
    intro hr
    exact absurd (h.symm.trans hr) Bool.false_ne_true
  exact if_neg hs

theorem enqueue_of_running {q : Queue} (h : q.running = true) (now : Nat) (t : Task) :
    q.enqueue now t =
      let tidied := q.countSubmitted.tidy now
      if tidied.2.rules.capacity ≤ tidied.2.size then
        let r := tidied.2.reject s!"task queue full ({tidied.2.size}/{tidied.2.rules.capacity})"
        (r.1, tidied.1, r.2)
      else
        let named := tidied.2.assignId t
        (.ok named.1.id, tidied.1, named.2.push named.1) :=
  if_pos h

/-- A task that is turned away is counted as such and leaves no trace among those waiting. -/
structure TurnedAway (q : Queue) (r : Except Error TaskId × List Answer × Queue) : Prop where
  refused : ∃ e, r.1 = .error e
  moves : Moves q [] (r.2.1.map (·.1)) r.2.2
  counters : r.2.2.counters =
    { q.counters with
      submitted := q.counters.submitted + 1
      rejected := q.counters.rejected + 1
      timedOut := q.counters.timedOut + r.2.1.length }

/-- A task that is let in waits under the id it was given, where there was room for it. -/
structure LetIn (q : Queue) (t : Task) (r : Except Error TaskId × List Answer × Queue) : Prop where
  waits : ∃ u, u.ticket = t.ticket ∧ r.1 = .ok u.id ∧ Moves q [u] (r.2.1.map (·.1)) r.2.2
  room : r.2.2.size ≤ q.rules.capacity
  running : q.running = true
  counters : r.2.2.counters =
    { q.counters with
      submitted := q.counters.submitted + 1
      timedOut := q.counters.timedOut + r.2.1.length }

theorem enqueue_cases (q : Queue) (now : Nat) (t : Task) :
    TurnedAway q (q.enqueue now t) ∨ LetIn q t (q.enqueue now t) := by
  have htidy : Moves q [] ((q.countSubmitted.tidy now).1.map (·.1)) (q.countSubmitted.tidy now).2 :=
    (moves_tidy q.countSubmitted now).of_count_left
  have hcount := counters_tidy q.countSubmitted now
  cases hr : q.running with
  | false =>
    left
    rw [enqueue_of_stopped hr]
    exact ⟨⟨_, rfl⟩, ⟨rfl, rfl, List.Perm.refl _⟩, rfl⟩
  | true =>
    rw [enqueue_of_running hr]
    generalize q.countSubmitted.tidy now = tidied at htidy hcount
    dsimp only
    split
    case isTrue hfull =>
      left
      refine ⟨⟨_, rfl⟩, ⟨htidy.rules, htidy.running, htidy.waiting⟩, ?_⟩
      change { tidied.2.counters with rejected := tidied.2.counters.rejected + 1 } = _
      rw [hcount]
      rfl
    case isFalse hroom =>
      right
      -- late tasks leave, then an id is given, then the task joins: three moves in a row
      have hid := moves_assignId tidied.2 t
      have hpush := moves_push (tidied.2.assignId t).2 (tidied.2.assignId t).1
      have hmoves := (htidy.trans hid).trans hpush
      refine ⟨⟨_, assignId_ticket _ t, rfl, ?_⟩, ?_, hr, ?_⟩
      · simpa only [List.append_nil] using hmoves
      · have hsize := hpush.size_add
        have hsize' := hid.size_add
        simp only [List.length_nil, List.length_singleton] at hsize hsize'
        rw [htidy.rules] at hroom
        change ((tidied.2.assignId t).2.push (tidied.2.assignId t).1).size ≤ q.rules.capacity
        omega
      · rw [counters_push, counters_assignId, hcount]
        rfl

end ChatInference.Queue
