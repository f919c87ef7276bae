import ChatInference.Proofs.Queue.Waiting
import Mathlib.Logic.Function.Basic

/-!
The queue tier by tier. What waits is a list for each tier, and an operation does three things to the
lists: it takes out all tasks of some kind, puts one task at the end of its tier, or takes one task
from anywhere in a tier. The tasks it leaves stay in their tier and in their order.
-/

namespace ChatInference

inductive Tier where
  | urgent
  | normal
  | low
  deriving DecidableEq

/-- How many tiers are served before this one. -/
def Tier.rank : Tier → Nat
  | urgent => 0
  | normal => 1
  | low => 2

def Priority.tier : Priority → Tier
  | .urgent => .urgent
  | .high | .normal => .normal
  | .low => .low

/-- Where a task waits. Without priorities every task is a normal one. -/
def QueueRules.tierOf (r : QueueRules) (t : Task) : Tier :=
  if r.priorities then t.priority.tier else .normal

/-- What waits, for each tier. -/
abbrev Tiers := Tier → List Task

namespace Tiers

def sift (lists : Tiers) (p : Task → Bool) : Tiers := fun k => (lists k).filter p

/-- A task joins at the end of a tier. -/
def join (lists : Tiers) (k : Tier) (t : Task) : Tiers := Function.update lists k (lists k ++ [t])

/-- The second lists are the first ones without the task, if there is one. -/
inductive Without (lists : Tiers) : Option Task → Tiers → Prop
  | nobody : Without lists none lists
  | task {k : Tier} {before after : List Task} {t : Task} (h : lists k = before ++ t :: after) :
      Without lists (some t) (Function.update lists k (before ++ after))

theorem Without.sublist {lists lists' : Tiers} {o : Option Task} (h : lists.Without o lists')
    (k : Tier) : (lists' k).Sublist (lists k) := by
  cases h with
  | nobody => exact .refl _
  | @task k' before after t h =>
    by_cases hk : k = k'
    · subst hk
      rw [Function.update_self, h]
      exact (List.Sublist.refl before).append (List.sublist_cons_self t after)
    · rw [Function.update_of_ne hk]

theorem Without.mem {lists lists' : Tiers} {t : Task} (h : lists.Without (some t) lists') :
    ∃ k, t ∈ lists k := by
  cases h with
  | @task k before after t h =>
    refine ⟨k, ?_⟩
    rw [h]
    exact List.mem_append_right _ List.mem_cons_self

theorem sift_all (lists : Tiers) : lists.sift (fun _ => true) = lists := by
  funext k
  exact List.filter_eq_self.2 fun _ _ => rfl

theorem mem_sift {lists : Tiers} {p : Task → Bool} {k : Tier} {t : Task} :
    t ∈ lists.sift p k ↔ t ∈ lists k ∧ p t = true := List.mem_filter

theorem mem_join {lists : Tiers} {k k' : Tier} {t u : Task} :
    u ∈ lists.join k t k' ↔ u ∈ lists k' ∨ k' = k ∧ u = t := by
  by_cases h : k' = k
  · subst h
    simp [join]
  · simp [join, h]

end Tiers

namespace Queue

def tier (q : Queue) : Tiers
  | .urgent => q.urgent
  | .normal => q.normal
  | .low => q.low

theorem waiting_eq_tiers (q : Queue) :
    q.waiting = q.tier .urgent ++ q.tier .normal ++ q.tier .low := rfl

theorem mem_waiting_iff {q : Queue} {t : Task} : t ∈ q.waiting ↔ ∃ k, t ∈ q.tier k := by
  rw [waiting_eq_tiers, List.mem_append, List.mem_append]
  constructor
  · rintro ((h | h) | h)
    · exact ⟨.urgent, h⟩
    · exact ⟨.normal, h⟩
    · exact ⟨.low, h⟩
  · rintro ⟨k, h⟩
    cases k with
    | urgent => exact .inl (.inl h)
    | normal => exact .inl (.inr h)
    | low => exact .inr h

theorem tier_keep (q : Queue) (p : Task → Bool) : (q.keep p).tier = q.tier.sift p := by
  funext k
  cases k <;> rfl

@[simp] theorem tier_count (q : Queue) (f : QueueCounters → QueueCounters) :
    (q.count f).tier = q.tier := by
  funext k
  cases k <;> rfl

theorem tier_push (q : Queue) (t : Task) :
    (q.push t).tier = q.tier.join (q.rules.tierOf t) t := by
  -- the task goes to one tier, and the two others are what they were
  have hpriority : (if q.rules.priorities = true then t.priority else .normal).tier =
      q.rules.tierOf t := by
    unfold QueueRules.tierOf
    split <;> rfl
  unfold push
  rw [← hpriority]
  funext k
  generalize (if q.rules.priorities = true then t.priority else .normal) = p
  cases p <;> cases k <;> rfl

/-- From `q` to `q'` the tasks without the property were taken out, and whom the queue serves next
was not decided. -/
structure Sifted (q : Queue) (p : Task → Bool) (q' : Queue) : Prop where
  rules : q'.rules = q.rules
  lastServed : q'.lastServed = q.lastServed
  tiers : q'.tier = q.tier.sift p

theorem sifted_all (q : Queue) : Sifted q (fun _ => true) q := ⟨rfl, rfl, q.tier.sift_all.symm⟩

theorem Sifted.count {q q' : Queue} {p : Task → Bool} (h : Sifted q p q')
    (f : QueueCounters → QueueCounters) : Sifted q p (q'.count f) :=
  ⟨h.rules, h.lastServed, (tier_count q' f).trans h.tiers⟩

theorem Sifted.reject {q q' : Queue} {p : Task → Bool} (h : Sifted q p q') (why : String) :
    Sifted q p (q'.reject why).2 := by
  unfold Queue.reject
  dsimp only
  exact h.count _

theorem sifted_keep (q : Queue) (p : Task → Bool) : Sifted q p (q.keep p) :=
  ⟨rfl, rfl, tier_keep q p⟩

/-- The tasks that are not past their deadline. -/
def live (q : Queue) (now : Nat) : Tiers := q.tier.sift fun t => !t.isExpired now

theorem mem_live {q : Queue} {now : Nat} {k : Tier} {t : Task} :
    t ∈ q.live now k ↔ t ∈ q.tier k ∧ now ≤ t.deadline := by
  unfold live
  rw [Tiers.mem_sift]
  simp [Task.isExpired]

theorem sifted_purge (q : Queue) (now : Nat) :
    Sifted q (fun t => !t.isExpired now) (q.purge now).2 := by
  unfold purge
  dsimp only
  exact (sifted_keep q _).count _

theorem tier_purge (q : Queue) (now : Nat) : (q.purge now).2.tier = q.live now :=
  (sifted_purge q now).tiers

theorem sifted_withdraw (q : Queue) (p : Task → Bool) :
    Sifted q (fun t => !p t) (q.withdraw p).2 := by
  unfold withdraw
  dsimp only
  exact (sifted_keep q _).count _

theorem tier_cancel (q : Queue) (id : TaskId) :
    (q.cancel id).2.2.tier = q.tier.sift fun t => !(t.id == id) :=
  (sifted_withdraw q fun t => t.id == id).tiers

/-- Which tasks a submission does not remove. -/
def spares (q : Queue) (now : Nat) (t : Task) : Bool :=
  !(q.running && q.rules.purgeOnEnqueue && t.isExpired now)

theorem spares_of_purging {q : Queue} (hr : q.running = true)
    (hp : q.rules.purgeOnEnqueue = true) (now : Nat) :
    q.spares now = fun t => !t.isExpired now := by
  funext t
  simp only [spares, hr, hp, Bool.true_and]

theorem spares_all {q : Queue} (h : (q.running && q.rules.purgeOnEnqueue) = false) (now : Nat) :
    q.spares now = fun _ => true := by
  funext t
  simp only [spares, h, Bool.false_and, Bool.not_false]

theorem sifted_countSubmitted (q : Queue) : Sifted q (fun _ => true) q.countSubmitted := by
  unfold countSubmitted
  exact (sifted_all q).count _

theorem sifted_tidy {q : Queue} (hr : q.running = true) (now : Nat) :
    Sifted q (q.spares now) (q.countSubmitted.tidy now).2 := by
  unfold tidy
  split
  case isTrue hp =>
    rw [spares_of_purging hr hp]
    have hpurged := sifted_purge q.countSubmitted now
    refine ⟨hpurged.rules, hpurged.lastServed, hpurged.tiers.trans ?_⟩
    rw [countSubmitted, tier_count]
  case isFalse hp =>
    rw [spares_all (by rw [hr]; exact Bool.eq_false_iff.2 hp)]
    exact sifted_countSubmitted q

theorem assignId_eq (q : Queue) (t : Task) : ∃ id, (q.assignId t).1 = { t with id } := by
  unfold assignId
  split
  · exact ⟨_, rfl⟩
  · exact ⟨t.id, rfl⟩

theorem sifted_assignId {q q' : Queue} {p : Task → Bool} (h : Sifted q p q') (t : Task) :
    Sifted q p (q'.assignId t).2 := by
  unfold assignId
  split
  · exact ⟨h.rules, h.lastServed, h.tiers⟩
  · exact ⟨h.rules, h.lastServed, h.tiers⟩

/-- What a submission comes to: late tasks are removed where that is the rule, and the task joins at
the end of its tier unless it is refused. -/
inductive Enqueued (q : Queue) (now : Nat) (t : Task) : Except Error TaskId → Queue → Prop
  | refused {e : Error} {q' : Queue} (h : Sifted q (q.spares now) q') : Enqueued q now t (.error e) q'
  | joined {id : TaskId} {q' : Queue} (h : Sifted q (q.spares now) q') :
      Enqueued q now t (.ok id) (q'.push { t with id })

theorem enqueued (q : Queue) (now : Nat) (t : Task) :
    Enqueued q now t (q.enqueue now t).1 (q.enqueue now t).2.2 := by
  cases hr : q.running with
  | false =>
    have hcounted : Sifted q (q.spares now) q.countSubmitted := by
      rw [spares_all (by rw [hr]; rfl)]
      exact sifted_countSubmitted q
    rw [enqueue_of_stopped hr]
    exact .refused (hcounted.reject "task queue is shut down")
  | true =>
    have htidy := sifted_tidy hr now
    rw [enqueue_of_running hr]
    dsimp only
    split
    · dsimp only
      exact .refused (htidy.reject _)
    · obtain ⟨id, hid⟩ := assignId_eq (q.countSubmitted.tidy now).2 t
      rw [hid]
      exact .joined (sifted_assignId htidy t)

theorem takePreferred_none {p : Task → Bool} {tier : List Task}
    (h : takePreferred p tier = none) : tier = [] := by
  cases tier with
  | nil => rfl
  | cons t ts =>
    unfold takePreferred at h
    split at h
    case h_1 i hi =>
      obtain ⟨hlt, -⟩ := List.findIdx?_eq_some_iff_getElem.1 hi
      simp [List.getElem?_eq_getElem hlt] at h
    case h_2 => cases h

/-- The tasks passed over do not satisfy the condition; where there are any, the one taken does. -/
theorem takePreferred_some {p : Task → Bool} {tier rest : List Task} {t : Task}
    (h : takePreferred p tier = some (t, rest)) :
    ∃ before after, tier = before ++ t :: after ∧ rest = before ++ after ∧
      (∀ u ∈ before, p u = false) ∧ (before ≠ [] → p t = true) := by
  unfold takePreferred at h
  split at h
  case h_1 i hi =>
    obtain ⟨hlt, hpick, hpassed⟩ := List.findIdx?_eq_some_iff_getElem.1 hi
    rw [List.getElem?_eq_getElem hlt] at h
    cases h
    refine ⟨tier.take i, tier.drop (i + 1), ?_, tier.eraseIdx_eq_take_drop_succ i, ?_,
      fun _ => hpick⟩
    · rw [List.getElem_cons_drop, List.take_append_drop]
    · intro u hu
      obtain ⟨j, hj, rfl⟩ := List.mem_take_iff_getElem.1 hu
      exact Bool.eq_false_iff.2 (hpassed j (by omega))
  case h_2 =>
    -- nobody satisfies the condition, and the head goes
    obtain ⟨u, hu, he⟩ := Option.map_eq_some_iff.1 h
    cases he
    exact ⟨[], tier.tail, List.eq_cons_of_mem_head? hu, rfl, List.forall_mem_nil _,
      fun hne => absurd rfl hne⟩

def withTier (q : Queue) (ts : List Task) : Tier → Queue
  | .urgent => { q with urgent := ts }
  | .normal => { q with normal := ts }
  | .low => { q with low := ts }

theorem tier_withTier (q : Queue) (ts : List Task) (k : Tier) :
    (q.withTier ts k).tier = Function.update q.tier k ts := by
  funext k'
  cases k <;> cases k' <;> rfl

/-- The next task of a queue: of the first tier that is not empty, and there behind none but tasks
that fair scheduling passes over. -/
structure Next (q : Queue) (k : Tier) (before : List Task) (t : Task) (after : List Task) :
    Prop where
  highest : ∀ k', k'.rank < k.rank → q.tier k' = []
  place : q.tier k = before ++ t :: after
  passed : ∀ u ∈ before, q.prefers u = false
  preferred : before ≠ [] → q.prefers t = true

theorem Next.mem {q : Queue} {k : Tier} {before after : List Task} {t : Task}
    (next : Next q k before t after) : t ∈ q.tier k := by
  rw [next.place]
  exact List.mem_append_right _ List.mem_cons_self

/-- Fair scheduling looks at the session alone. -/
theorem prefers_congr {q : Queue} {t u : Task} (h : t.session = u.session) :
    q.prefers t = q.prefers u := by
  unfold prefers
  rw [h]

theorem prefers_of_not_fair {q : Queue} (h : q.rules.fair = false) (t : Task) :
    q.prefers t = true := by
  unfold prefers
  rw [h]
  split <;> rfl

/-- Without fair scheduling the head of the tier is next. -/
theorem Next.before_eq_nil {q : Queue} {k : Tier} {before after : List Task} {t : Task}
    (next : Next q k before t after) (h : q.rules.fair = false) : before = [] := by
  apply List.eq_nil_iff_forall_not_mem.2
  intro u hu
  have hpassed := next.passed u hu
  rw [prefers_of_not_fair h] at hpassed
  cases hpassed

/-- What a pop comes to. -/
inductive Popped (q : Queue) : Option Task → Queue → Prop
  | nobody (h : ∀ k, q.tier k = []) : Popped q none q
  | task {k : Tier} {before after : List Task} {t : Task} (h : Next q k before t after) :
      Popped q (some t) { q.withTier (before ++ after) k with lastServed := some t.session }

theorem popped (q : Queue) : Popped q q.pop.1 q.pop.2 := by
  -- the tiers are looked at in order, and the first that is not empty gives the task
  have hnext (k : Tier) (hempty : ∀ k', k'.rank < k.rank → q.tier k' = []) {t : Task}
      {rest : List Task} (h : takePreferred q.prefers (q.tier k) = some (t, rest)) :
      Popped q (some t) { q.withTier rest k with lastServed := some t.session } := by
    obtain ⟨before, after, hplace, rfl, hpassed, hpreferred⟩ := takePreferred_some h
    exact .task ⟨hempty, hplace, hpassed, hpreferred⟩
  unfold pop
  split
  case h_1 t rest h => exact hnext .urgent (fun k' hk' => absurd hk' (Nat.not_lt_zero _)) h
  case h_2 hu =>
    have hurgent : q.tier .urgent = [] := takePreferred_none hu
    split
    case h_1 t rest h =>
      refine hnext .normal (fun k' hk' => ?_) h
      cases k' with
      | urgent => exact hurgent
      | normal => exact absurd hk' (Nat.lt_irrefl _)
      | low => exact absurd hk' (by decide)
    case h_2 hn =>
      have hnormal : q.tier .normal = [] := takePreferred_none hn
      split
      case h_1 t rest h =>
        refine hnext .low (fun k' hk' => ?_) h
        cases k' with
        | urgent => exact hurgent
        | normal => exact hnormal
        | low => exact absurd hk' (Nat.lt_irrefl _)
      case h_2 hl =>
        refine .nobody fun k => ?_
        cases k with
        | urgent => exact hurgent
        | normal => exact hnormal
        | low => exact takePreferred_none hl

theorem tier_taken (q : Queue) (k : Tier) (before after : List Task) (t : Task) :
    ({ q.withTier (before ++ after) k with lastServed := some t.session } : Queue).tier =
      Function.update q.tier k (before ++ after) := by
  rw [← tier_withTier]
  funext k'
  cases k' <;> rfl

theorem rules_withTier (q : Queue) (ts : List Task) (k : Tier) :
    (q.withTier ts k).rules = q.rules := by
  cases k <;> rfl

theorem Popped.rules {q q' : Queue} {o : Option Task} (h : Popped q o q') :
    q'.rules = q.rules := by
  cases h with
  | nobody => rfl
  | task h => exact rules_withTier q _ _

theorem Popped.without {q q' : Queue} {o : Option Task} (h : Popped q o q') :
    q.tier.Without o q'.tier := by
  cases h with
  | nobody h => exact .nobody
  | task h =>
    rw [tier_taken]
    exact .task h.place

end Queue

end ChatInference
