import ChatInference.Proofs.Queue.Tiers
import Mathlib.Data.List.Induction

/-!
The order in which tasks are taken, over whole runs of the queue. Submissions are stamped with their
number, so that of two tasks the one submitted first has the smaller ticket. Main statement: what is
taken is always of the first tier with a task in time, without fair scheduling the oldest of them, and
the tasks of one session and one tier are taken in the order they were submitted in.
-/

namespace ChatInference

/-- A queue, and the tasks that were taken from it, in that order. -/
structure Line where
  queue : Queue
  /-- Each submission is stamped with the number of submissions before it. -/
  submitted : Nat := 0
  taken : List Task := []

namespace Line

/-- A call of the queue, at any time. -/
inductive Call where
  | enqueue (now : Nat) (t : Task)
  | dequeue (now : Nat)
  | tryDequeue (now : Nat)
  | cancel (id : TaskId)
  | cancelSession (session : SessionId)
  | markCompleted
  | markTimedOut
  | shutdown

def opened (l : Limits) : Line := { queue := .ofLimits l }

def take (b : Line) (r : Option Task × List Answer × Queue) : Line :=
  { b with queue := r.2.2, taken := b.taken ++ r.1.toList }

def after (b : Line) : Call → Line
  | .enqueue now t =>
    { b with
      queue := (b.queue.enqueue now { t with ticket := b.submitted }).2.2
      submitted := b.submitted + 1 }
  | .dequeue now => b.take (b.queue.dequeue now)
  | .tryDequeue now => b.take (b.queue.tryDequeue now)
  | .cancel id => { b with queue := (b.queue.cancel id).2.2 }
  | .cancelSession session => { b with queue := (b.queue.cancelSession session).2 }
  | .markCompleted => { b with queue := b.queue.markCompleted }
  | .markTimedOut => { b with queue := b.queue.markTimedOut }
  | .shutdown => { b with queue := b.queue.shutdown.2 }

def run (l : Limits) (calls : List Call) : Line := calls.foldl after (opened l)

/-- What one call can do to a line. -/
inductive Goes (b : Line) : Line → Prop
  | sifted {p : Task → Bool} {q : Queue} {n : Nat} (h : b.queue.Sifted p q)
      (hn : b.submitted ≤ n) : Goes b { b with queue := q, submitted := n }
  | joined {p : Task → Bool} {q : Queue} {t : Task} (h : b.queue.Sifted p q)
      (stamp : t.ticket = b.submitted) :
      Goes b { b with queue := q.push t, submitted := b.submitted + 1 }
  | took {p : Task → Bool} {q q' : Queue} {o : Option Task} (h : b.queue.Sifted p q)
      (next : q.Popped o q') : Goes b { b with queue := q', taken := b.taken ++ o.toList }

variable {l : Limits} {rules : QueueRules} {b b' : Line}

theorem goes_tryDequeue (b : Line) (now : Nat) : Goes b (b.after (.tryDequeue now)) :=
  .took (Queue.sifted_purge b.queue now) (Queue.popped (b.queue.purge now).2)

theorem goes_count (b : Line) (f : QueueCounters → QueueCounters) :
    Goes b { b with queue := b.queue.count f } :=
  .sifted ((Queue.sifted_all b.queue).count f) (Nat.le_refl _)

theorem goes_after (b : Line) (c : Call) : Goes b (b.after c) := by
  cases c with
  | enqueue now t =>
    have h := Queue.enqueued b.queue now { t with ticket := b.submitted }
    simp only [after]
    generalize (b.queue.enqueue now { t with ticket := b.submitted }).1 = answer at h
    generalize (b.queue.enqueue now { t with ticket := b.submitted }).2.2 = q at h ⊢
    cases h with
    | refused h => exact .sifted h (Nat.le_succ _)
    | joined h => exact .joined h rfl
  | dequeue now =>
    cases hr : b.queue.running with
    | true =>
      simp only [after, Queue.dequeue_of_running hr]
      exact goes_tryDequeue b now
    | false =>
      simp only [after, take, Queue.dequeue_of_stopped hr, Option.toList_none, List.append_nil]
      exact .sifted (Queue.sifted_all b.queue) (Nat.le_refl _)
  | tryDequeue now => exact goes_tryDequeue b now
  | cancel id => exact .sifted (Queue.sifted_withdraw b.queue fun t => t.id == id) (Nat.le_refl _)
  | cancelSession session =>
    exact .sifted (Queue.sifted_withdraw b.queue fun t => t.session == session) (Nat.le_refl _)
  | markCompleted => exact goes_count b _
  | markTimedOut => exact goes_count b _
  | shutdown =>
    have h := Queue.sifted_withdraw { b.queue with running := false } fun _ => true
    exact .sifted ⟨h.rules, h.lastServed, h.tiers⟩ (Nat.le_refl _)

theorem run_concat (l : Limits) (calls : List Call) (c : Call) :
    run l (calls ++ [c]) = (run l calls).after c := by
  unfold run
  rw [List.foldl_append, List.foldl_cons, List.foldl_nil]

/-- What every call keeps, made at the end of any run, is kept by a run. -/
theorem run_induction {P : Line → Prop} (hopened : P (opened l))
    (hstep : ∀ calls c, P (run l calls) → P ((run l calls).after c)) (calls : List Call) :
    P (run l calls) := by
  -- on the last call, so that what the step knows of the run before it is at hand
  induction calls using List.reverseRecOn with
  | nil => exact hopened
  | append_singleton calls c ih =>
    rw [run_concat]
    exact hstep calls c ih

/-- The waiting tasks stand in their tiers in the order they were submitted in. -/
structure Lined (rules : QueueRules) (b : Line) : Prop where
  terms : b.queue.rules = rules
  placed : ∀ k, ∀ t ∈ b.queue.tier k, rules.tierOf t = k
  ascending : ∀ k, (b.queue.tier k).Pairwise fun t u => t.ticket < u.ticket
  stamped : ∀ k, ∀ t ∈ b.queue.tier k, t.ticket < b.submitted

theorem lined_opened (l : Limits) : Lined l.queueRules (opened l) := by
  have hempty (k : Tier) : (opened l).queue.tier k = [] := by cases k <;> rfl
  refine ⟨rfl, ?_, ?_, ?_⟩
  · intro k t ht
    rw [hempty] at ht
    cases ht
  · intro k
    rw [hempty]
    exact .nil
  · intro k t ht
    rw [hempty] at ht
    cases ht

theorem Lined.of_sublist (hb : Lined rules b) (hrules : b'.queue.rules = b.queue.rules)
    (hsub : ∀ k, (b'.queue.tier k).Sublist (b.queue.tier k)) (hn : b.submitted ≤ b'.submitted) :
    Lined rules b' :=
  ⟨hrules.trans hb.terms, fun k t ht => hb.placed k t ((hsub k).subset ht),
    fun k => (hb.ascending k).sublist (hsub k),
    fun k t ht => Nat.lt_of_lt_of_le (hb.stamped k t ((hsub k).subset ht)) hn⟩

theorem Lined.sifted {p : Task → Bool} {q : Queue} (hb : Lined rules b) (h : b.queue.Sifted p q) :
    Lined rules { b with queue := q } := by
  refine hb.of_sublist h.rules (fun k => ?_) (Nat.le_refl _)
  rw [h.tiers]
  exact List.filter_sublist

theorem lined_goes (hb : Lined rules b) (h : Goes b b') : Lined rules b' := by
  cases h with
  | sifted h hn => exact (hb.sifted h).of_sublist rfl (fun k => .refl _) hn
  | @joined p q t h stamp =>
    have hq := hb.sifted h
    have hrules : (q.push t).rules = rules := (Queue.moves_push q t).rules.trans hq.terms
    have htier : (q.push t).tier = q.tier.join (rules.tierOf t) t := by
      rw [Queue.tier_push, hq.terms]
    refine ⟨hrules, ?_, ?_, ?_⟩
    · intro k u hu
      rw [htier] at hu
      rcases Tiers.mem_join.1 hu with hu | ⟨rfl, rfl⟩
      · exact hq.placed k u hu
      · rfl
    · -- the newcomer has the greatest ticket, and stands at the end
      intro k
      change ((q.push t).tier k).Pairwise _
      rw [htier]
      by_cases hk : k = rules.tierOf t
      · subst hk
        rw [Tiers.join, Function.update_self, List.pairwise_append]
        refine ⟨hq.ascending _, List.pairwise_singleton _ t, ?_⟩
        intro u hu v hv
        rw [List.mem_singleton.1 hv, stamp]
        exact hq.stamped _ u hu
      · rw [Tiers.join, Function.update_of_ne hk]
        exact hq.ascending k
    · intro k u hu
      rw [htier] at hu
      rcases Tiers.mem_join.1 hu with hu | ⟨-, rfl⟩
      · exact Nat.lt_succ_of_lt (hq.stamped k u hu)
      · rw [stamp]
        exact Nat.lt_succ_self _
  | @took p q q' o h next =>
    have hq := hb.sifted h
    refine hq.of_sublist next.rules next.without.sublist (Nat.le_refl _)

theorem lined_run (l : Limits) (calls : List Call) : Lined l.queueRules (run l calls) :=
  run_induction (lined_opened l) (fun _ c hb => lined_goes hb (goes_after _ c)) calls

/-- Of two tasks of one session and one tier, the one submitted first is taken first. -/
structure InTurn (rules : QueueRules) (b : Line) : Prop where
  stamped : ∀ t ∈ b.taken, t.ticket < b.submitted
  ahead : ∀ t ∈ b.taken, ∀ k, ∀ u ∈ b.queue.tier k, t.session = u.session →
    rules.tierOf t = k → t.ticket < u.ticket
  taken : b.taken.Pairwise fun t u => t.session = u.session →
    rules.tierOf t = rules.tierOf u → t.ticket < u.ticket

theorem inTurn_opened (l : Limits) : InTurn l.queueRules (opened l) :=
  ⟨List.forall_mem_nil _, List.forall_mem_nil _, .nil⟩

theorem InTurn.of_sublist (hb : InTurn rules b) (htaken : b'.taken = b.taken)
    (hsub : ∀ k, (b'.queue.tier k).Sublist (b.queue.tier k)) (hn : b.submitted ≤ b'.submitted) :
    InTurn rules b' := by
  refine ⟨?_, ?_, ?_⟩
  · rw [htaken]
    exact fun t ht => Nat.lt_of_lt_of_le (hb.stamped t ht) hn
  · rw [htaken]
    exact fun t ht k u hu => hb.ahead t ht k u ((hsub k).subset hu)
  · rw [htaken]
    exact hb.taken

theorem InTurn.sifted {p : Task → Bool} {q : Queue} (hb : InTurn rules b)
    (h : b.queue.Sifted p q) : InTurn rules { b with queue := q } := by
  refine hb.of_sublist rfl (fun k => ?_) (Nat.le_refl _)
  rw [h.tiers]
  exact List.filter_sublist

/-- Whom the next task is taken before, of those of its session and its tier, was submitted later. -/
theorem Lined.next_ahead {k : Tier} {before after : List Task} {t u : Task} (hb : Lined rules b)
    (next : b.queue.Next k before t after) (hu : u ∈ before ++ after)
    (hsession : t.session = u.session) : t.ticket < u.ticket := by
  have hascending := hb.ascending k
  rw [next.place, List.pairwise_append, List.pairwise_cons] at hascending
  rcases List.mem_append.1 hu with hbefore | hafter
  · -- nobody of its own session is passed over
    have hpassed := next.passed u hbefore
    have hpreferred := next.preferred (List.ne_nil_of_mem hbefore)
    rw [Queue.prefers_congr hsession, hpassed] at hpreferred
    exact absurd hpreferred Bool.false_ne_true
  · exact hascending.2.1.1 u hafter

theorem inTurn_took {p : Task → Bool} {q q' : Queue} {o : Option Task} (hl : Lined rules b)
    (hb : InTurn rules b) (h : b.queue.Sifted p q) (next : q.Popped o q') :
    InTurn rules { b with queue := q', taken := b.taken ++ o.toList } := by
  have hq := hb.sifted h
  have hlq := hl.sifted h
  have hwithout := next.without
  cases next with
  | nobody _ => exact hq.of_sublist (List.append_nil _) (fun k => .refl _) (Nat.le_refl _)
  | @task k before after t next =>
    have hsub := hwithout.sublist
    have ht : t ∈ q.tier k := next.mem
    have hk : rules.tierOf t = k := hlq.placed k t ht
    have htier := Queue.tier_taken q k before after t
    -- in each part, whoever was taken before is known, and the new one was waiting in its tier
    refine ⟨?_, ?_, ?_⟩
    · intro u hu
      rcases List.mem_append.1 hu with hu | hu
      · exact hq.stamped u hu
      · rw [List.mem_singleton.1 hu]
        exact hlq.stamped k t ht
    · intro u hu k' v hv hsession hk'
      rcases List.mem_append.1 hu with hu | hu
      · exact hq.ahead u hu k' v ((hsub k').subset hv) hsession hk'
      · rw [List.mem_singleton.1 hu] at hsession hk' ⊢
        have hv' : v ∈ before ++ after := by
          rw [← hk', hk] at hv
          change v ∈ (Queue.tier _ k) at hv
          rwa [htier, Function.update_self] at hv
        exact hlq.next_ahead next hv' hsession
    · refine List.pairwise_append.2 ⟨hq.taken, List.pairwise_singleton _ t, ?_⟩
      intro u hu v hv hsession htiers
      rw [List.mem_singleton.1 hv] at hsession htiers ⊢
      exact hq.ahead u hu k t ht hsession (htiers.trans hk)

theorem inTurn_goes (hl : Lined rules b) (hb : InTurn rules b) (h : Goes b b') :
    InTurn rules b' := by
  cases h with
  | sifted h hn => exact (hb.sifted h).of_sublist rfl (fun k => .refl _) hn
  | @joined p q t h stamp =>
    have hq := hb.sifted h
    refine ⟨fun u hu => Nat.lt_succ_of_lt (hq.stamped u hu), ?_, hq.taken⟩
    -- whoever joins has a ticket greater than those of all that were taken
    intro u hu k v hv hsession hk
    change v ∈ (q.push t).tier k at hv
    rw [Queue.tier_push] at hv
    rcases Tiers.mem_join.1 hv with hv | ⟨-, rfl⟩
    · exact hq.ahead u hu k v hv hsession hk
    · rw [stamp]
      exact hq.stamped u hu
  | took h next => exact inTurn_took hl hb h next

theorem inTurn_run (l : Limits) (calls : List Call) : InTurn l.queueRules (run l calls) :=
  run_induction (inTurn_opened l)
    (fun calls c hb => inTurn_goes (lined_run l calls) hb (goes_after _ c)) calls

/-- Of the waiting tasks that are not late, a task that is due now. -/
structure Due (rules : QueueRules) (q : Queue) (now : Nat) (t : Task) : Prop where
  waits : t ∈ q.waiting
  inTime : now ≤ t.deadline
  highest : ∀ u ∈ q.waiting, now ≤ u.deadline →
    (rules.tierOf t).rank ≤ (rules.tierOf u).rank
  oldest : rules.fair = false → ∀ u ∈ q.waiting, now ≤ u.deadline →
    rules.tierOf u = rules.tierOf t → t.ticket ≤ u.ticket

/-- What a take should give: a task that is due, and none only where all that wait are late. -/
def Takes (rules : QueueRules) (q : Queue) (now : Nat) : Option Task → Prop
  | some t => Due rules q now t
  | none => ∀ u ∈ q.waiting, u.deadline < now

/-- Without fair scheduling the next task was submitted before all others of its tier. -/
theorem Lined.next_oldest {k : Tier} {before after : List Task} {t u : Task} (hb : Lined rules b)
    (next : b.queue.Next k before t after) (hfair : rules.fair = false) (hu : u ∈ b.queue.tier k) :
    t.ticket ≤ u.ticket := by
  have hrules : b.queue.rules.fair = false := by rw [hb.terms, hfair]
  have hplace := next.place
  rw [next.before_eq_nil hrules, List.nil_append] at hplace
  have hascending := hb.ascending k
  rw [hplace, List.pairwise_cons] at hascending
  rw [hplace] at hu
  rcases List.mem_cons.1 hu with rfl | hu
  · exact Nat.le_refl _
  · exact Nat.le_of_lt (hascending.1 u hu)

theorem Lined.mem_live {now : Nat} {u : Task} (hb : Lined rules b) :
    u ∈ b.queue.waiting ∧ now ≤ u.deadline ↔ u ∈ b.queue.live now (rules.tierOf u) := by
  rw [Queue.mem_live, Queue.mem_waiting_iff]
  constructor
  · rintro ⟨⟨k, hk⟩, htime⟩
    rw [hb.placed k u hk]
    exact ⟨hk, htime⟩
  · rintro ⟨hk, htime⟩
    exact ⟨⟨_, hk⟩, htime⟩

theorem Lined.takes (hb : Lined rules b) (now : Nat) :
    Takes rules b.queue now (b.queue.tryDequeue now).1 := by
  -- the task is the next one of the queue that is left when the late ones are gone
  have hp : Lined rules { b with queue := (b.queue.purge now).2 } :=
    hb.sifted (Queue.sifted_purge b.queue now)
  have hmem {u : Task} : u ∈ b.queue.waiting ∧ now ≤ u.deadline ↔
      u ∈ (b.queue.purge now).2.tier (rules.tierOf u) := by
    rw [hb.mem_live, Queue.tier_purge]
  have hnext := Queue.popped (b.queue.purge now).2
  change Takes rules b.queue now (b.queue.purge now).2.pop.1
  generalize (b.queue.purge now).2.pop.1 = o at hnext ⊢
  generalize (b.queue.purge now).2.pop.2 = q' at hnext
  cases hnext with
  | nobody hempty =>
    -- a task in time would stand in a tier that is not empty
    intro u hu
    by_contra htime
    have h := hmem.1 ⟨hu, Nat.le_of_not_lt htime⟩
    rw [hempty] at h
    cases h
  | @task k before after t next =>
    have hk : rules.tierOf t = k := hp.placed k t next.mem
    obtain ⟨hwaits, htime⟩ := hmem.2 (hk ▸ next.mem)
    refine ⟨hwaits, htime, ?_, ?_⟩
    · intro u hu htime
      rw [hk]
      by_contra hrank
      have h := hmem.1 ⟨hu, htime⟩
      rw [next.highest _ (Nat.lt_of_not_le hrank)] at h
      cases h
    · intro hfair u hu htime hsame
      have h := hmem.1 ⟨hu, htime⟩
      rw [hsame, hk] at h
      exact hp.next_oldest next hfair h

/-- A queue that is shut down holds nothing. -/
def Shut (b : Line) : Prop := b.queue.running = false → b.queue.waiting = []

theorem Shut.of_moves {q : Queue} {gone : List Task} (hb : Shut b)
    (h : Queue.Moves b.queue [] gone q) : q.running = false → q.waiting = [] := by
  intro hq
  exact h.waiting_eq_nil (hb (h.running.symm.trans hq))

theorem shut_after (b : Line) (c : Call) (hb : Shut b) : Shut (b.after c) := by
  cases c with
  | enqueue now t =>
    obtain haway | hin := Queue.enqueue_cases b.queue now { t with ticket := b.submitted }
    · exact hb.of_moves haway.moves
    · -- only a running queue lets a task in
      obtain ⟨u, -, -, hmoves⟩ := hin.waits
      intro hstopped
      have hrunning := hmoves.running.trans hin.running
      exact absurd (hstopped.symm.trans hrunning) Bool.false_ne_true
  | dequeue now => exact hb.of_moves (Queue.moves_dequeue b.queue now)
  | tryDequeue now => exact hb.of_moves (Queue.moves_tryDequeue b.queue now)
  | cancel id => exact hb.of_moves (Queue.moves_cancel b.queue id)
  | cancelSession session =>
    exact hb.of_moves (Queue.moves_withdraw b.queue fun t => t.session == session)
  | markCompleted => exact hb
  | markTimedOut => exact hb
  | shutdown => exact fun _ => Queue.waiting_shutdown b.queue

theorem shut_run (l : Limits) (calls : List Call) : Shut (run l calls) :=
  run_induction (fun _ => rfl) (fun _ c hb => shut_after _ c hb) calls

theorem Lined.takes_dequeue (hb : Lined rules b) (hshut : Shut b) (now : Nat) :
    Takes rules b.queue now (b.queue.dequeue now).1 := by
  cases hr : b.queue.running with
  | true =>
    rw [Queue.dequeue_of_running hr]
    exact hb.takes now
  | false =>
    rw [Queue.dequeue_of_stopped hr]
    intro u hu
    rw [hshut hr] at hu
    cases hu

/-- In every run of the queue, what a take gives is a task that is due: of the first tier that holds
a task in time, and without fair scheduling the one of them that was submitted first. It gives none
only where all that wait are late. Of two tasks of one session and one tier, the one submitted first
is always taken first. -/
theorem tasks_taken_in_order (l : Limits) (calls : List Call) (now : Nat) :
    let b := run l calls
    Takes l.queueRules b.queue now (b.queue.tryDequeue now).1 ∧
      Takes l.queueRules b.queue now (b.queue.dequeue now).1 ∧
      b.taken.Pairwise fun t u => t.session = u.session →
        l.queueRules.tierOf t = l.queueRules.tierOf u → t.ticket < u.ticket := by
  intro b
  have hb : Lined l.queueRules b := lined_run l calls
  exact ⟨hb.takes now, hb.takes_dequeue (shut_run l calls) now, (inTurn_run l calls).taken⟩

/-- Three sessions, of which the first has two tasks waiting, and a task that is soon late. -/
def rotation : List Call :=
  let task (session : SessionId) (priority : Priority) (deadline : Nat) : Task :=
    { session, priority, deadline, prompt := "Hi" }
  [.enqueue 0 (task 1 .normal 90), .enqueue 0 (task 1 .normal 90), .enqueue 0 (task 2 .high 90),
    .enqueue 0 (task 4 .urgent 3), .enqueue 0 (task 3 .urgent 90), .dequeue 5, .dequeue 6,
    .dequeue 7]

theorem tasks_taken_in_order_rotating :
    let b := run { fairScheduling := true } rotation
    b.taken.map (·.ticket) = [4, 0, 2] ∧
      ∃ t, (b.queue.dequeue 8).1 = some t ∧ t.ticket = 1 ∧
        Due { capacity := 50, fair := true } b.queue 8 t := by
  intro b
  have hticket : (b.queue.dequeue 8).1.map (·.ticket) = some 1 := by decide
  obtain ⟨t, ht, hone⟩ := Option.map_eq_some_iff.1 hticket
  have h := (tasks_taken_in_order { fairScheduling := true } rotation 8).2.1
  rw [ht] at h
  exact ⟨by decide, t, ht, hone, h⟩

end Line

end ChatInference
