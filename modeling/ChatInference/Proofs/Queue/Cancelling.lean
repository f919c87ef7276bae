import ChatInference.Proofs.Queue.Ids
import ChatInference.Proofs.Queue.Order

/-!
Calls by id. Such a call takes out all tasks that wait under the id, and hands back the last of them.
Main statement: it takes out the task it hands back and no other exactly when no two wait under the id;
and so it does in every run in which whoever brings an id brings one that nobody waits under. How far the
ids of a run are words of 64 bits is said as well.
-/

namespace ChatInference

namespace Tiers

theorem filter_not_eq_self {p : Task → Bool} {us : List Task} (h : us.filter p = []) :
    us.filter (fun u => !p u) = us := by
  apply List.filter_eq_self.2
  intro u hu
  rw [Bool.eq_false_iff.2 (List.filter_eq_nil_iff.1 h u hu), Bool.not_false]

/-- Where one task alone satisfies a condition, to take out those that do is to take out that task. -/
theorem without_sift {lists : Tiers} {p : Task → Bool} {k : Tier} {t : Task}
    (ht : (lists k).filter p = [t]) (hothers : ∀ k', k' ≠ k → (lists k').filter p = []) :
    lists.Without (some t) (lists.sift fun u => !p u) := by
  -- the tier is cut at the task; nobody before it or after it satisfies the condition
  obtain ⟨before, after, hplace, hbefore, hp, hafter⟩ := List.filter_eq_cons_iff.1 ht
  have hsift : lists.sift (fun u => !p u) = Function.update lists k (before ++ after) := by
    funext k'
    by_cases hk : k' = k
    · subst hk
      have hgone : (t :: after).filter (fun u => !p u) = after.filter fun u => !p u :=
        List.filter_cons_of_neg (by rw [hp]; decide)
      rw [Function.update_self, sift, hplace, List.filter_append, hgone, filter_not_eq_self hafter,
        filter_not_eq_self (List.filter_eq_nil_iff.2 hbefore)]
    · rw [Function.update_of_ne hk, sift, filter_not_eq_self (hothers k' hk)]
  rw [hsift]
  exact .task hplace

end Tiers

namespace Queue

/-- What a call by id does: it takes out all tasks that wait under it, and counts them as cancelled.
It hands back one of them, if there are any. -/
structure Withdraws (q : Queue) (id : TaskId) (r : Option Task × List Task × Queue) : Prop where
  found : r.1.isSome ↔ ∃ t ∈ q.waiting, t.id = id
  gone : r.2.1 ++ r.1.toList = q.waiting.filter fun t => t.id == id
  others : r.2.2.tier = q.tier.sift fun t => !(t.id == id)
  counted : r.2.2.counters = { q.counters with
    cancelled := q.counters.cancelled + (q.waiting.filter fun t => t.id == id).length }

/-- What a call by id should do: hand back the task that waits under it, if there is one, and take out
and count that task alone. -/
structure TakesOut (q : Queue) (id : TaskId) (r : Option Task × List Task × Queue) : Prop where
  found : r.1.isSome ↔ ∃ t ∈ q.waiting, t.id = id
  named : ∀ t, r.1 = some t → t.id = id
  others : q.tier.Without r.1 r.2.2.tier
  counted : r.2.2.counters =
    { q.counters with cancelled := q.counters.cancelled + r.1.toList.length }

variable {q : Queue}

theorem cancel_found (q : Queue) (id : TaskId) :
    (q.cancel id).1.isSome ↔ ∃ t ∈ q.waiting, t.id = id := by
  have hlast : (q.cancel id).1 = (q.waiting.filter fun t => t.id == id).getLast? := rfl
  rw [hlast, List.getLast?_isSome]
  constructor
  · intro hne
    obtain ⟨t, ht⟩ := List.exists_mem_of_ne_nil _ hne
    exact ⟨t, (List.mem_filter.1 ht).1, beq_iff_eq.1 (List.mem_filter.1 ht).2⟩
  · rintro ⟨t, ht, hid⟩
    exact List.ne_nil_of_mem (List.mem_filter.2 ⟨ht, beq_iff_eq.2 hid⟩)

theorem withdraws_cancel (q : Queue) (id : TaskId) : Withdraws q id (q.cancel id) :=
  ⟨cancel_found q id, cancel_gone q id, tier_cancel q id, rfl⟩

/-- A task that alone satisfies a condition is found in one tier, and nobody in the two others. -/
theorem without_of_filter {p : Task → Bool} {t : Task} (h : q.waiting.filter p = [t]) :
    q.tier.Without (some t) (q.tier.sift fun u => !p u) := by
  rw [waiting_eq_tiers, List.filter_append, List.filter_append] at h
  rcases List.append_eq_singleton_iff.1 h with ⟨hrest, hlow⟩ | ⟨hrest, hlow⟩
  · obtain ⟨hurgent, hnormal⟩ := List.append_eq_nil_iff.1 hrest
    refine Tiers.without_sift hlow fun k hk => ?_
    cases k with
    | urgent => exact hurgent
    | normal => exact hnormal
    | low => exact absurd rfl hk
  · rcases List.append_eq_singleton_iff.1 hrest with ⟨hurgent, hnormal⟩ | ⟨hurgent, hnormal⟩
    · refine Tiers.without_sift hnormal fun k hk => ?_
      cases k with
      | urgent => exact hurgent
      | normal => exact absurd rfl hk
      | low => exact hlow
    · refine Tiers.without_sift hurgent fun k hk => ?_
      cases k with
      | urgent => exact absurd rfl hk
      | normal => exact hnormal
      | low => exact hlow

theorem without_of_nobody {p : Task → Bool} (h : q.waiting.filter p = []) :
    q.tier.Without none (q.tier.sift fun u => !p u) := by
  have hsift : q.tier.sift (fun u => !p u) = q.tier := by
    funext k
    apply Tiers.filter_not_eq_self
    apply List.filter_eq_nil_iff.2
    intro u hu
    exact List.filter_eq_nil_iff.1 h u (mem_waiting_iff.2 ⟨k, hu⟩)
  rw [hsift]
  exact .nobody

theorem takesOut_cancel_iff (q : Queue) (id : TaskId) :
    TakesOut q id (q.cancel id) ↔ (q.waiting.filter fun t => t.id == id).length ≤ 1 := by
  have hw := withdraws_cancel q id
  constructor
  · -- all that leave are counted, but one at most is handed back
    intro h
    have hcounted : q.counters.cancelled + (q.waiting.filter fun t => t.id == id).length =
        q.counters.cancelled + (q.cancel id).1.toList.length :=
      congrArg QueueCounters.cancelled (hw.counted.symm.trans h.counted)
    calc (q.waiting.filter fun t => t.id == id).length
        = (q.cancel id).1.toList.length := Nat.add_left_cancel hcounted
      _ ≤ 1 := Option.length_toList_le
  · intro hone
    -- nobody is dropped, so that what leaves is what is handed back
    have hall := hw.gone
    rw [cancel_drops_nothing_of_one hone, List.nil_append] at hall
    have hcounted := hw.counted
    have hothers := hw.others
    rw [← hall] at hcounted
    refine ⟨hw.found, ?_, ?_, hcounted⟩
    · intro t ht
      rw [ht] at hall
      have hmem : t ∈ q.waiting.filter fun t => t.id == id := by
        rw [← hall]
        exact List.mem_singleton_self t
      exact beq_iff_eq.1 (List.mem_filter.1 hmem).2
    · rw [hothers]
      cases ho : (q.cancel id).1 with
      | none =>
        rw [ho] at hall
        exact without_of_nobody hall.symm
      | some t =>
        rw [ho] at hall
        exact without_of_filter hall.symm

end Queue

namespace Line

/-- A condition on a call, and on the line it is made on, holds of each of some calls when it is made. -/
def Throughout (P : Line → Call → Prop) (b : Line) : List Call → Prop
  | [] => True
  | c :: calls => P b c ∧ Throughout P (b.after c) calls

/-- Each of the calls brings no task, or one that joins under an id that nobody waits under. -/
def Apart (b : Line) (calls : List Call) : Prop :=
  Throughout (fun b c => ∀ now t, c = .enqueue now t → b.queue.JoinsAlone t) b calls

/-- Each of the calls brings no task, or one without an id or with one that nobody waits under. -/
def Unclaimed (b : Line) (calls : List Call) : Prop :=
  Throughout (fun b c => ∀ now t, c = .enqueue now t → b.queue.Unclaimed t) b calls

/-- The id that the queue assigns next. -/
def nextId (b : Line) : Nat := b.queue.nextId

/-- The id that a call brings; zero where it brings none. -/
def Call.chosen : Call → Nat
  | .enqueue _ t => t.id
  | .dequeue _ | .tryDequeue _ | .cancel _ | .cancelSession _ | .markCompleted | .markTimedOut
  | .shutdown => 0

/-- No id that is chosen is so high, and the calls are not so many, that the next id passes the last word
of 64 bits. -/
def InWords (calls : List Call) : Prop := ∀ c ∈ calls, c.chosen + calls.length + 1 < UInt64.size

/-- What a call does to the ids of those that wait. -/
theorem leaves_or_joins (b : Line) (c : Call) :
    b.queue.Leaves (b.after c).queue ∨ ∃ now t, c = .enqueue now t ∧
      b.queue.Joins { t with ticket := b.submitted } (b.after c).queue := by
  cases c with
  | enqueue now t =>
    rcases b.queue.enqueue_joins now { t with ticket := b.submitted } with ⟨-, h⟩ | ⟨-, h⟩
    · exact .inl h
    · exact .inr ⟨now, t, rfl, h⟩
  | dequeue now =>
    exact .inl (Queue.leaves_of_moves (Queue.moves_dequeue b.queue now) (Queue.nextId_dequeue _ _))
  | tryDequeue now =>
    exact .inl (Queue.leaves_of_moves (Queue.moves_tryDequeue b.queue now)
      (Queue.nextId_pop (b.queue.purge now).2))
  | cancel id => exact .inl (Queue.leaves_of_moves (Queue.moves_cancel b.queue id) rfl)
  | cancelSession session =>
    exact .inl (Queue.leaves_of_moves (Queue.moves_withdraw b.queue _) rfl)
  | markCompleted | markTimedOut => exact .inl ⟨⟨[], List.Perm.refl _⟩, rfl⟩
  | shutdown =>
    exact .inl ⟨⟨_, (Queue.moves_withdraw { b.queue with running := false } _).waiting⟩, rfl⟩

theorem distinct_foldl {b : Line} {calls : List Call} (hb : b.queue.Distinct)
    (hc : Apart b calls) : (calls.foldl after b).queue.Distinct := by
  induction calls generalizing b with
  | nil => exact hb
  | cons c calls ih =>
    refine ih ?_ hc.2
    rcases b.leaves_or_joins c with hleaves | ⟨now, t, hcall, hjoins⟩
    · exact Queue.distinct_of_leaves hb hleaves
    · refine Queue.distinct_of_joins hb ?_ hjoins
      have halone := hc.1 now t hcall
      unfold Queue.JoinsAlone at halone ⊢
      rwa [Queue.assignId_id] at halone ⊢

/-- Ids that the queue assigns are nobody's, so it is enough that those are which are chosen. -/
theorem apart_of_unclaimed {b : Line} {calls : List Call} (hb : b.queue.Numbered)
    (hc : Unclaimed b calls) : Apart b calls := by
  induction calls generalizing b with
  | nil => trivial
  | cons c calls ih =>
    refine ⟨fun now t hcall => (hc.1 now t hcall).joinsAlone hb, ih ?_ hc.2⟩
    rcases b.leaves_or_joins c with hleaves | ⟨now, t, hcall, hjoins⟩
    · exact Queue.numbered_of_leaves hb hleaves
    · have hunclaimed : b.queue.Unclaimed { t with ticket := b.submitted } := hc.1 now t hcall
      exact Queue.numbered_of_joins hb hunclaimed hjoins

/-- Each call takes the next id up by one at most, from the one before or from the one it brings. -/
theorem nextId_foldl_le {b : Line} {calls : List Call} {k : Nat} (hb : b.nextId ≤ k)
    (hc : ∀ c ∈ calls, c.chosen ≤ k) : (calls.foldl after b).nextId ≤ k + calls.length := by
  induction calls generalizing b k with
  | nil => exact hb
  | cons c calls ih =>
    have hnext : (b.after c).nextId ≤ k + 1 := by
      rcases b.leaves_or_joins c with hleaves | ⟨now, t, rfl, hjoins⟩
      · exact Nat.le_succ_of_le (Nat.le_trans (Nat.le_of_eq hleaves.nextId) hb)
      · have hmax : max b.nextId t.id ≤ k := Nat.max_le.2 ⟨hb, hc _ List.mem_cons_self⟩
        calc (b.after (.enqueue now t)).nextId
            = (b.queue.assignId { t with ticket := b.submitted }).2.nextId := hjoins.nextId
          _ ≤ max b.nextId t.id + 1 := Queue.nextId_assignId_le _ _
          _ ≤ k + 1 := Nat.succ_le_succ hmax
    have hrest := ih hnext fun c hmem => Nat.le_succ_of_le (hc c (List.mem_cons_of_mem _ hmem))
    rw [List.foldl_cons, List.length_cons]
    omega

theorem nextId_run_lt (l : Limits) {calls : List Call} (h : InWords calls) :
    (run l calls).nextId < UInt64.size := by
  cases calls with
  | nil => exact (by decide : 1 < UInt64.size)
  | cons c calls =>
    have hroom := h c List.mem_cons_self
    have hle : (run l (c :: calls)).nextId ≤
        UInt64.size - (c :: calls).length - 1 + (c :: calls).length := by
      apply nextId_foldl_le
      · change 1 ≤ _
        omega
      · intro c' hc'
        have hroom' := h c' hc'
        omega
    omega

/-- At any point of a run: a call by id hands back a task exactly when one waits under the id, and
all that wait under it leave, while the others stay in their tier and their order. The one handed back
is all that leaves exactly when no two wait under the id; so in every run whose tasks join under ids that
nobody waits under. For that it is enough that no task brings an id which another waits under, since those
that the queue assigns are nobody's. Where no id is chosen near the last word of 64 bits, and the calls
are not too many, the next id is such a word and so are all before it. -/
theorem cancel_takes_out_one_iff (l : Limits) (calls : List Call) (id : TaskId) :
    let q := (run l calls).queue
    q.Withdraws id (q.cancel id) ∧
      (q.TakesOut id (q.cancel id) ↔ (q.waiting.filter fun t => t.id == id).length ≤ 1) ∧
      (Apart (opened l) calls → q.TakesOut id (q.cancel id)) ∧
      (Unclaimed (opened l) calls → Apart (opened l) calls) ∧
      (InWords calls → (run l calls).nextId < UInt64.size) := by
  intro q
  have hiff := q.takesOut_cancel_iff id
  have hopened : (opened l).queue.Numbered := Queue.numbered_ofLimits l
  refine ⟨q.withdraws_cancel id, hiff, ?_, apart_of_unclaimed hopened, nextId_run_lt l⟩
  intro hapart
  have hdistinct : q.Distinct := distinct_foldl hopened.distinct hapart
  exact hiff.2 (hdistinct.length_filter_le_one id)

/-- Two tasks of two sessions, under ids that they may bring themselves. -/
def pair (id id' : TaskId) : List Call :=
  let task (id : TaskId) (session : SessionId) : Task :=
    { id, session, deadline := 90, prompt := "Hi" }
  [.enqueue 0 (task id 1), .enqueue 0 (task id' 2)]

/-- One of the tasks is given an id that the other one's keeps clear of. -/
theorem cancel_takes_out_one_iff_given :
    let q := (run {} (pair 5 0)).queue
    InWords (pair 5 0) ∧ (run {} (pair 5 0)).nextId < UInt64.size ∧
      Unclaimed (opened {}) (pair 5 0) ∧
      q.TakesOut 5 (q.cancel 5) ∧ (q.cancel 5).1.map (·.session) = some 1 ∧
      (q.cancel 5).2.2.waiting.map (·.id) = [6] := by
  intro q
  have hwords : InWords (pair 5 0) := by
    unfold InWords
    decide
  have hunclaimed : Unclaimed (opened {}) (pair 5 0) := by
    refine ⟨?_, ?_, trivial⟩
    · rintro now t ⟨⟩
      exact .inr (List.forall_mem_nil _)
    · rintro now t ⟨⟩
      exact .inl rfl
  obtain ⟨-, -, htakes, hapart, hnext⟩ := cancel_takes_out_one_iff {} (pair 5 0) 5
  exact ⟨hwords, hnext hwords, hunclaimed, htakes (hapart hunclaimed), by decide, by decide⟩

/-- Of two tasks under one id both are taken out and counted, but one alone is handed back. -/
theorem cancel_drops_the_first_of_two :
    let q := (run {} (pair 5 5)).queue
    (q.cancel 5).1.map (·.session) = some 2 ∧ (q.cancel 5).2.2.size = 0 ∧
      ¬q.TakesOut 5 (q.cancel 5) := by
  intro q
  refine ⟨by decide, by decide, ?_⟩
  intro h
  have hcounted := congrArg QueueCounters.cancelled h.counted
  exact absurd hcounted (by decide)

end Line

end ChatInference
