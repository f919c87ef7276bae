import ChatInference.Proofs.Queue.Order

/-!
Who is overtaken by whom. A task overtakes another that waits in its tier and was submitted before it.
Main statement: a task is overtaken only when the task taken last was of its own session, and never by
two tasks that are taken one after the other.
-/

namespace ChatInference

def QueueRules.Overtakes (r : QueueRules) (t w : Task) : Prop :=
  r.tierOf t = r.tierOf w ∧ w.ticket < t.ticket

namespace Queue

/-- Only fair scheduling passes over a task, when its session was served last. -/
theorem prefers_eq_false_iff {q : Queue} {t : Task} :
    q.prefers t = false ↔ q.rules.fair = true ∧ q.lastServed = some t.session := by
  unfold prefers
  cases q.lastServed with
  | none => simp
  | some last =>
    cases q.rules.fair with
    | false => simp
    | true =>
      simp only [Bool.not_true, Bool.false_or, bne_eq_false_iff_eq, true_and, Option.some_inj]
      exact eq_comm

theorem lastServed_push (q : Queue) (t : Task) : (q.push t).lastServed = q.lastServed := by
  unfold push
  split <;> rfl

end Queue

namespace Line

variable {rules : QueueRules} {b b' : Line}

/-- Whoever the next task overtakes is passed over for its session, and the next task is of
another one. -/
theorem Lined.next_overtakes {k : Tier} {before after : List Task} {t w : Task}
    (hb : Lined rules b) (next : b.queue.Next k before t after) (hw : w ∈ b.queue.tier k)
    (hticket : w.ticket < t.ticket) :
    b.queue.lastServed = some w.session ∧ t.session ≠ w.session := by
  have hascending := hb.ascending k
  rw [next.place, List.pairwise_append, List.pairwise_cons] at hascending
  have hbefore : w ∈ before := by
    rw [next.place] at hw
    rcases List.mem_append.1 hw with hbefore | hrest
    · exact hbefore
    · -- from the task on, the tickets are not smaller than its own
      rcases List.mem_cons.1 hrest with rfl | hafter
      · exact absurd hticket (Nat.lt_irrefl _)
      · exact absurd hticket (Nat.lt_asymm (hascending.2.1.1 w hafter))
  have hpassed := next.passed w hbefore
  refine ⟨(Queue.prefers_eq_false_iff.1 hpassed).2, ?_⟩
  intro hsession
  have hpreferred := next.preferred (List.ne_nil_of_mem hbefore)
  rw [Queue.prefers_congr hsession, hpassed] at hpreferred
  cases hpreferred

/-- The queue knows whose task was taken last; and a task that this one overtook is of another
session. -/
structure Rotates (rules : QueueRules) (b : Line) : Prop where
  last : b.queue.lastServed = b.taken.getLast?.map (·.session)
  turned : ∀ t, b.taken.getLast? = some t → ∀ k, ∀ w ∈ b.queue.tier k, rules.Overtakes t w →
    t.session ≠ w.session

theorem rotates_opened (l : Limits) : Rotates l.queueRules (opened l) := by
  refine ⟨rfl, ?_⟩
  intro t ht
  cases ht

theorem Rotates.sifted {p : Task → Bool} {q : Queue} (hb : Rotates rules b)
    (h : b.queue.Sifted p q) : Rotates rules { b with queue := q } := by
  refine ⟨h.lastServed.trans hb.last, ?_⟩
  intro t ht k w hw
  change w ∈ q.tier k at hw
  rw [h.tiers, Tiers.mem_sift] at hw
  exact hb.turned t ht k w hw.1

theorem rotates_goes (hl : Lined rules b) (hi : InTurn rules b) (hb : Rotates rules b)
    (h : Goes b b') : Rotates rules b' := by
  cases h with
  | sifted h hn => exact ⟨(hb.sifted h).last, (hb.sifted h).turned⟩
  | @joined p q t h stamp =>
    have hq := hb.sifted h
    refine ⟨(Queue.lastServed_push q t).trans hq.last, ?_⟩
    intro u hu k w hw hover
    change w ∈ (q.push t).tier k at hw
    rw [Queue.tier_push] at hw
    rcases Tiers.mem_join.1 hw with hw | ⟨-, rfl⟩
    · exact hq.turned u hu k w hw hover
    · -- nobody that was taken has a greater ticket than the newcomer
      have hlt := hi.stamped u (List.mem_of_getLast? hu)
      rw [← stamp] at hlt
      exact absurd hover.2 (Nat.lt_asymm hlt)
  | @took p q q' o h next =>
    have hq := hb.sifted h
    have hlq := hl.sifted h
    have hsub := next.without.sublist
    cases next with
    | nobody _ =>
      rw [Option.toList_none, List.append_nil]
      exact hq
    | @task k before after t next =>
      have htaken : (b.taken ++ [t]).getLast? = some t := List.getLast?_concat
      refine ⟨(congrArg (Option.map Task.session) htaken).symm, ?_⟩
      intro u hu k' w hw hover
      have hut : u = t := Option.some.inj (hu.symm.trans htaken)
      subst hut
      -- the task overtaken waits in the tier the other one was taken from
      have hwq : w ∈ q.tier k' := (hsub k').subset hw
      have hk : k' = k := by
        calc k' = rules.tierOf w := (hlq.placed k' w hwq).symm
          _ = rules.tierOf u := hover.1.symm
          _ = k := hlq.placed k u next.mem
      rw [hk] at hwq
      exact (hlq.next_overtakes next hwq hover.2).2

theorem rotates_run (l : Limits) (calls : List Call) : Rotates l.queueRules (run l calls) :=
  run_induction (rotates_opened l)
    (fun calls c hb => rotates_goes (lined_run l calls) (inTurn_run l calls) hb (goes_after _ c))
    calls

theorem tryDequeue_of_dequeue {q : Queue} {now : Nat} {t : Task}
    (h : (q.dequeue now).1 = some t) : (q.tryDequeue now).1 = some t := by
  unfold Queue.dequeue at h
  split at h
  · exact h
  · cases h

/-- A task overtakes another one, waiting and in time, only when the task taken last was of the
other one's session. -/
theorem last_of_overtakes (hl : Lined rules b) (hb : Rotates rules b) {now : Nat} {t w : Task}
    (ht : (b.queue.tryDequeue now).1 = some t) (hw : w ∈ b.queue.waiting)
    (htime : now ≤ w.deadline) (hover : rules.Overtakes t w) :
    ∃ u, b.taken.getLast? = some u ∧ u.session = w.session := by
  -- whom it overtakes still waits when the late ones are gone, in the tier it is taken from
  have hp : Lined rules { b with queue := (b.queue.purge now).2 } :=
    hl.sifted (Queue.sifted_purge b.queue now)
  have hwlive := hl.mem_live.1 ⟨hw, htime⟩
  rw [← Queue.tier_purge, ← hover.1] at hwlive
  have hnext := Queue.popped (b.queue.purge now).2
  change (b.queue.purge now).2.pop.1 = some t at ht
  rw [ht] at hnext
  generalize (b.queue.purge now).2.pop.2 = q' at hnext
  cases hnext with
  | @task k before after t next =>
    have hk : rules.tierOf t = k := hp.placed k t next.mem
    rw [hk] at hwlive
    have hlast := (hp.next_overtakes next hwlive hover.2).1
    have hsame : (b.queue.purge now).2.lastServed = b.queue.lastServed :=
      (Queue.sifted_purge b.queue now).lastServed
    change (b.queue.purge now).2.lastServed = some w.session at hlast
    rw [hsame, hb.last] at hlast
    exact Option.map_eq_some_iff.1 hlast

/-- At any point of a run: when a task is taken before a waiting one of its tier that was submitted
earlier and is not late, the task taken last was of the waiting one's session; and so no two tasks
taken one after the other overtake one that waits, whatever is done between them. -/
theorem nobody_overtaken_twice (l : Limits) (calls : List Call) (now : Nat) {t w : Task}
    (ht : ((run l calls).queue.dequeue now).1 = some t ∨
      ((run l calls).queue.tryDequeue now).1 = some t)
    (hw : w ∈ (run l calls).queue.waiting) (htime : now ≤ w.deadline) :
    (l.queueRules.Overtakes t w →
        ∃ u, (run l calls).taken.getLast? = some u ∧ u.session = w.session) ∧
      ∀ u, (run l calls).taken.getLast? = some u →
        ¬(l.queueRules.Overtakes u w ∧ l.queueRules.Overtakes t w) := by
  have hl : Lined l.queueRules (run l calls) := lined_run l calls
  have hb : Rotates l.queueRules (run l calls) := rotates_run l calls
  have htry : ((run l calls).queue.tryDequeue now).1 = some t := by
    rcases ht with ht | ht
    · exact tryDequeue_of_dequeue ht
    · exact ht
  have hlast := last_of_overtakes hl hb htry hw htime
  refine ⟨hlast, ?_⟩
  rintro u hu ⟨hover, hover'⟩
  -- the task taken last was of its session, but then it cannot have overtaken it
  obtain ⟨v, hv, hsession⟩ := hlast hover'
  obtain rfl : u = v := Option.some.inj (hu.symm.trans hv)
  obtain ⟨k, hk⟩ := Queue.mem_waiting_iff.1 hw
  exact hb.turned u hu k w hk hover hsession

/-- The second task of the first session is overtaken by the task of the second one. -/
theorem nobody_overtaken_twice_rotating :
    let l : Limits := { fairScheduling := true }
    let b := run l (rotation.take 7)
    ∃ t w, (b.queue.dequeue 7).1 = some t ∧ w ∈ b.queue.waiting ∧ l.queueRules.Overtakes t w ∧
      ∃ u, b.taken.getLast? = some u ∧ u.session = w.session ∧ ¬l.queueRules.Overtakes u w := by
  intro l b
  let stamp (t : Task) : Nat × Tier × Nat := (t.ticket, l.queueRules.tierOf t, t.deadline)
  have htaken : (b.queue.dequeue 7).1.map stamp = some (2, .normal, 90) := by decide
  have hhead : b.queue.waiting.head?.map stamp = some (1, .normal, 90) := by decide
  obtain ⟨t, ht, hstamp⟩ := Option.map_eq_some_iff.1 htaken
  obtain ⟨w, hw, hstamp'⟩ := Option.map_eq_some_iff.1 hhead
  simp only [stamp, Prod.mk.injEq] at hstamp hstamp'
  have hwaits : w ∈ b.queue.waiting := List.mem_of_head? hw
  have hover : l.queueRules.Overtakes t w :=
    ⟨hstamp.2.1.trans hstamp'.2.1.symm, by omega⟩
  obtain ⟨honly, htwice⟩ :=
    nobody_overtaken_twice l (rotation.take 7) 7 (.inl ht) hwaits (by omega)
  obtain ⟨u, hu, hsession⟩ := honly hover
  exact ⟨t, w, ht, hwaits, hover, u, hu, hsession, fun hover' => htwice u hu ⟨hover', hover⟩⟩

end Line

end ChatInference
