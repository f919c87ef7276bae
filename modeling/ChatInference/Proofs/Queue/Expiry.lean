import ChatInference.Proofs.Queue.Tiers

/-!
Tasks past their deadline. A call that takes a task, and a submission where that is the rule, first
answers and removes the late ones. Main statement: none of them is taken, each is told once, the others
stay where they are, and a late task keeps no newcomer out.
-/

namespace ChatInference

/-- After a submission the others wait as before, and where the task was let in it stands behind
them. -/
def Tiers.Admits (lists : Tiers) (rules : QueueRules) (t : Task) :
    Except Error TaskId → Tiers → Prop
  | .ok id, lists' => lists' = lists.join (rules.tierOf t) { t with id }
  | .error _, lists' => lists' = lists

namespace Queue

/-- The tasks that do not stay are answered, each once, that their time is over, and are counted. -/
structure Expires (q : Queue) (now : Nat) (stays : Task → Bool) (answers : List Answer)
    (q' : Queue) : Prop where
  late : answers.map (·.1) = q.waiting.filter fun t => !stays t
  told : ∀ a ∈ answers,
    a.2 = .error (.timeout s!"task expired after {now - a.1.createdAt} ms in queue")
  counted : q'.counters.timedOut = q.counters.timedOut + answers.length

/-- What a take does: the late tasks are answered, and the others stay where they are but for the
one that is taken, which is in time. -/
structure TakesInTime (q : Queue) (now : Nat) (stays : Task → Bool)
    (r : Option Task × List Answer × Queue) : Prop where
  expires : Expires q now stays r.2.1 r.2.2
  inTime : ∀ t, r.1 = some t → now ≤ t.deadline
  others : (q.tier.sift stays).Without r.1 r.2.2.tier

/-- What a submission does: the late tasks are answered where that is the rule, the others stay
where they are, and the newcomer is refused only when those in time fill the queue. -/
structure Submits (q : Queue) (now : Nat) (t : Task)
    (r : Except Error TaskId × List Answer × Queue) : Prop where
  expires : Expires q now (q.spares now) r.2.1 r.2.2
  others : (q.tier.sift (q.spares now)).Admits q.rules t r.1 r.2.2.tier
  refused_iff : q.running = true → q.rules.purgeOnEnqueue = true →
    ((∃ e, r.1 = .error e) ↔
      q.rules.capacity ≤ (q.waiting.filter fun u => !u.isExpired now).length)

variable {q q' q'' : Queue} {now : Nat} {stays : Task → Bool} {answers : List Answer}

theorem Expires.of_counters (h : Expires q now stays answers q')
    (hc : q''.counters.timedOut = q'.counters.timedOut) : Expires q now stays answers q'' :=
  ⟨h.late, h.told, hc.trans h.counted⟩

theorem expires_purge (q : Queue) (now : Nat) :
    Expires q now (fun t => !t.isExpired now) (q.purge now).1 (q.purge now).2 := by
  refine ⟨?_, ?_, ?_⟩
  · simp only [Bool.not_not]
    exact purge_expired q now
  · intro a ha
    obtain ⟨t, -, rfl⟩ := List.mem_map.1 ha
    rfl
  · rw [counters_purge]

theorem expires_nobody (hc : q'.counters.timedOut = q.counters.timedOut) :
    Expires q now (fun _ => true) [] q' := by
  refine ⟨?_, List.forall_mem_nil _, hc⟩
  symm
  exact List.filter_eq_nil_iff.2 fun t _ h => Bool.false_ne_true h

theorem takesInTime_tryDequeue (q : Queue) (now : Nat) :
    TakesInTime q now (fun t => !t.isExpired now) (q.tryDequeue now) := by
  -- the task is taken from what is left when the late ones are gone
  have hothers : (q.live now).Without (q.purge now).2.pop.1 (q.purge now).2.pop.2.tier := by
    rw [← tier_purge]
    exact (popped (q.purge now).2).without
  refine ⟨?_, ?_, hothers⟩
  · apply (expires_purge q now).of_counters
    exact congrArg QueueCounters.timedOut (counters_pop (q.purge now).2)
  · intro t ht
    change (q.purge now).2.pop.1 = some t at ht
    rw [ht] at hothers
    obtain ⟨k, hk⟩ := hothers.mem
    exact (mem_live.1 hk).2

theorem takesInTime_dequeue (q : Queue) (now : Nat) :
    TakesInTime q now (fun t => !(q.running && t.isExpired now)) (q.dequeue now) := by
  cases hr : q.running with
  | true =>
    simp only [dequeue_of_running hr, Bool.true_and]
    exact takesInTime_tryDequeue q now
  | false =>
    simp only [dequeue_of_stopped hr, Bool.false_and, Bool.not_false]
    refine ⟨expires_nobody rfl, ?_, ?_⟩
    · intro t ht
      cases ht
    · rw [Tiers.sift_all]
      exact .nobody

theorem expires_tidy (hr : q.running = true) :
    Expires q now (q.spares now) (q.countSubmitted.tidy now).1 (q.countSubmitted.tidy now).2 := by
  unfold tidy
  split
  case isTrue hp =>
    rw [spares_of_purging hr hp]
    have h := expires_purge q.countSubmitted now
    exact ⟨h.late, h.told, h.counted⟩
  case isFalse hp =>
    rw [spares_all (by rw [hr]; exact Bool.eq_false_iff.2 hp)]
    exact expires_nobody rfl

theorem expires_enqueue (q : Queue) (now : Nat) (t : Task) :
    Expires q now (q.spares now) (q.enqueue now t).2.1 (q.enqueue now t).2.2 := by
  cases hr : q.running with
  | false =>
    rw [enqueue_of_stopped hr, spares_all (by rw [hr]; rfl)]
    exact expires_nobody rfl
  | true =>
    have htidy : Expires q now (q.spares now) _ _ := expires_tidy hr
    rw [enqueue_of_running hr]
    dsimp only
    split
    · exact htidy.of_counters rfl
    · apply htidy.of_counters
      rw [counters_push, counters_assignId]

theorem admits_enqueue (q : Queue) (now : Nat) (t : Task) :
    (q.tier.sift (q.spares now)).Admits q.rules t (q.enqueue now t).1
      (q.enqueue now t).2.2.tier := by
  have h := enqueued q now t
  generalize (q.enqueue now t).1 = answer at h ⊢
  generalize (q.enqueue now t).2.2 = q' at h ⊢
  cases h with
  | refused h => exact h.tiers
  | @joined id q' h =>
    change (q'.push { t with id }).tier = _
    rw [tier_push, h.tiers, h.rules]
    rfl

/-- A full queue is one that those in time fill. -/
theorem enqueue_refused_iff (hr : q.running = true) (hp : q.rules.purgeOnEnqueue = true)
    (now : Nat) (t : Task) :
    (∃ e, (q.enqueue now t).1 = .error e) ↔
      q.rules.capacity ≤ (q.waiting.filter fun u => !u.isExpired now).length := by
  have htidy : q.countSubmitted.tidy now = q.countSubmitted.purge now := if_pos hp
  have hsize : (q.countSubmitted.purge now).2.size =
      (q.waiting.filter fun u => !u.isExpired now).length := by
    calc (q.countSubmitted.purge now).2.size
        = (q.countSubmitted.purge now).2.waiting.length := size_eq_length_waiting _
      _ = (q.waiting.filter fun u => !u.isExpired now).length :=
        congrArg List.length (waiting_keep q.countSubmitted _)
  have hrules : (q.countSubmitted.purge now).2.rules = q.rules := rfl
  -- the room is measured after the late ones are gone
  rw [enqueue_of_running hr, htidy, ← hsize, ← hrules]
  dsimp only
  split
  case isTrue hfull => exact ⟨fun _ => hfull, fun _ => ⟨_, rfl⟩⟩
  case isFalse hroom =>
    refine ⟨?_, fun hfull => absurd hfull hroom⟩
    rintro ⟨e, he⟩
    cases he

theorem submits_enqueue (q : Queue) (now : Nat) (t : Task) : Submits q now t (q.enqueue now t) :=
  ⟨expires_enqueue q now t, admits_enqueue q now t,
    fun hr hp => enqueue_refused_iff hr hp now t⟩

/-- For every queue, at any time: no take gives a task past its deadline; whom a take or a
submission removes for being late is told once that its time is over and is counted once, and the
others stay in their tier and their order; and where late tasks are removed at a submission, a
running queue refuses it exactly when the tasks in time reach its capacity. -/
theorem expired_answered_not_taken (q : Queue) (now : Nat) :
    TakesInTime q now (fun t => !t.isExpired now) (q.tryDequeue now) ∧
      TakesInTime q now (fun t => !(q.running && t.isExpired now)) (q.dequeue now) ∧
      ∀ t, Submits q now t (q.enqueue now t) :=
  ⟨takesInTime_tryDequeue q now, takesInTime_dequeue q now, submits_enqueue q now⟩

/-- A queue for three that is full, until the task in the middle is late. -/
def crowded : Queue :=
  let task (session : SessionId) (deadline : Nat) : Task := { session, deadline, prompt := "Hi" }
  { rules := { capacity := 3 }, normal := [task 1 90, task 2 5, task 3 90] }

theorem expired_answered_not_taken_crowded :
    let r := crowded.dequeue 6
    r.1.map (·.session) = some 1 ∧ r.2.1.map (·.1.session) = [2] ∧
      r.2.2.waiting.map (·.session) = [3] ∧ TakesInTime crowded 6 (fun t => !t.isExpired 6) r ∧
      ∀ t, (∃ e, (crowded.enqueue 5 t).1 = .error e) ∧ ¬∃ e, (crowded.enqueue 6 t).1 = .error e := by
  intro r
  have htakes := (expired_answered_not_taken crowded 6).2.1
  refine ⟨by decide, by decide, by decide, htakes, ?_⟩
  intro t
  have hfull := ((expired_answered_not_taken crowded 5).2.2 t).refused_iff rfl rfl
  have hroom := ((expired_answered_not_taken crowded 6).2.2 t).refused_iff rfl rfl
  exact ⟨hfull.2 (by decide), fun h => absurd (hroom.1 h) (by decide)⟩

end Queue

end ChatInference
