import ChatInference.Proofs.Queue.Waiting
import Mathlib.Data.List.Nodup

/-!
The ids of the tasks that wait. No two wait under one id as long as each task joins under an id that
nobody waits under, and then a call by id takes out at most one. The queue numbers the tasks it is given
without an id, and keeps clear of the ids it has seen.
-/

namespace ChatInference.Queue

/-- No two tasks wait under one id. -/
def Distinct (q : Queue) : Prop := (q.waiting.map (·.id)).Nodup

/-- The waiting tasks have different ids, all of them given out. -/
structure Numbered (q : Queue) : Prop where
  distinct : Distinct q
  below : ∀ t ∈ q.waiting, t.id < q.nextId

theorem numbered_ofLimits (l : Limits) : Numbered (ofLimits l) :=
  ⟨List.nodup_nil, List.forall_mem_nil _⟩

variable {q q' : Queue} {gone : List Task} {t : Task}

/-- Tasks leave, and no id is given out. -/
structure Leaves (q q' : Queue) : Prop where
  waiting : ∃ gone, (gone ++ q'.waiting).Perm q.waiting
  nextId : q'.nextId = q.nextId

/-- A task joins under the id it is assigned, and others may leave. -/
structure Joins (q : Queue) (t : Task) (q' : Queue) : Prop where
  waiting : ∃ gone, (gone ++ q'.waiting).Perm ((q.assignId t).1 :: q.waiting)
  nextId : q'.nextId = (q.assignId t).2.nextId

theorem leaves_of_moves (h : Moves q [] gone q') (hid : q'.nextId = q.nextId) : Leaves q q' :=
  ⟨⟨gone, h.waiting⟩, hid⟩

/-- Those that are left of tasks with different ids have different ids. -/
theorem distinct_of_perm {ts : List Task} (hts : (ts.map (·.id)).Nodup)
    (hp : (gone ++ q'.waiting).Perm ts) : Distinct q' := by
  have hd := (hp.map (·.id)).nodup_iff.2 hts
  rw [List.map_append] at hd
  exact (List.nodup_append.1 hd).2.1

theorem distinct_of_leaves (hq : Distinct q) (h : Leaves q q') : Distinct q' := by
  obtain ⟨gone, hp⟩ := h.waiting
  exact distinct_of_perm hq hp

theorem numbered_of_leaves (hq : Numbered q) (h : Leaves q q') : Numbered q' := by
  refine ⟨distinct_of_leaves hq.distinct h, fun t ht => ?_⟩
  obtain ⟨gone, hp⟩ := h.waiting
  rw [h.nextId]
  exact hq.below t (hp.mem_iff.1 (List.mem_append_right _ ht))

theorem numbered_of_moves (hq : Numbered q) (h : Moves q [] gone q')
    (hid : q'.nextId = q.nextId) : Numbered q' :=
  numbered_of_leaves hq (leaves_of_moves h hid)

theorem nextId_pop (q : Queue) : q.pop.2.nextId = q.nextId := by
  unfold pop
  split
  · rfl
  · split
    · rfl
    · split <;> rfl

theorem nextId_dequeue (q : Queue) (now : Nat) : (q.dequeue now).2.2.nextId = q.nextId := by
  unfold dequeue
  split
  · exact nextId_pop (q.purge now).2
  · rfl

theorem numbered_dequeue (hq : Numbered q) (now : Nat) : Numbered (q.dequeue now).2.2 :=
  numbered_of_moves hq (moves_dequeue q now) (nextId_dequeue q now)

theorem nextId_push (q : Queue) (t : Task) : (q.push t).nextId = q.nextId := by
  unfold push
  split <;> rfl

theorem assignId_id (q : Queue) (t : Task) :
    (q.assignId t).1.id = if t.id = 0 then q.nextId else t.id := by
  unfold assignId
  split <;> rfl

/-- The next id goes up by one, or past the one that was chosen. -/
theorem nextId_assignId_le (q : Queue) (t : Task) :
    (q.assignId t).2.nextId ≤ max q.nextId t.id + 1 := by
  unfold assignId
  split
  · exact Nat.succ_le_succ (Nat.le_max_left _ _)
  · exact Nat.max_le.2 ⟨Nat.le_succ_of_le (Nat.le_max_left _ _),
      Nat.succ_le_succ (Nat.le_max_right _ _)⟩

/-- A task joins under an id that nobody waits under. -/
def JoinsAlone (q : Queue) (t : Task) : Prop := ∀ u ∈ q.waiting, u.id ≠ (q.assignId t).1.id

/-- A task that brings no id, or one that nobody waits under. -/
def Unclaimed (q : Queue) (t : Task) : Prop := t.id = 0 ∨ ∀ u ∈ q.waiting, u.id ≠ t.id

/-- An id that the queue assigns is nobody's. -/
theorem Unclaimed.joinsAlone (ht : q.Unclaimed t) (hq : Numbered q) : q.JoinsAlone t := by
  intro u hu
  rw [assignId_id]
  split
  case isTrue => exact Nat.ne_of_lt (hq.below u hu)
  case isFalse hset => exact ht.resolve_left hset u hu

/-- All who wait then have an id below the next one. -/
theorem lt_nextId_assignId (hq : Numbered q) (t : Task) :
    ∀ u ∈ (q.assignId t).1 :: q.waiting, u.id < (q.assignId t).2.nextId := by
  unfold assignId
  split
  case isTrue =>
    intro u hu
    rcases List.mem_cons.1 hu with rfl | hu
    · exact Nat.lt_succ_self _
    · exact Nat.lt_succ_of_lt (hq.below u hu)
  case isFalse =>
    intro u hu
    rcases List.mem_cons.1 hu with rfl | hu
    · exact Nat.lt_of_lt_of_le (Nat.lt_succ_self _) (Nat.le_max_right _ _)
    · exact Nat.lt_of_lt_of_le (hq.below u hu) (Nat.le_max_left _ _)

theorem distinct_of_joins (hq : Distinct q) (ht : q.JoinsAlone t) (h : Joins q t q') :
    Distinct q' := by
  obtain ⟨gone, hp⟩ := h.waiting
  have hcons : (((q.assignId t).1 :: q.waiting).map (·.id)).Nodup := by
    rw [List.map_cons, List.nodup_cons]
    refine ⟨fun hmem => ?_, hq⟩
    obtain ⟨u, hu, he⟩ := List.mem_map.1 hmem
    exact ht u hu he
  exact distinct_of_perm hcons hp

theorem numbered_of_joins (hq : Numbered q) (ht : q.Unclaimed t) (h : Joins q t q') :
    Numbered q' := by
  refine ⟨distinct_of_joins hq.distinct (ht.joinsAlone hq) h, fun u hu => ?_⟩
  obtain ⟨gone, hp⟩ := h.waiting
  rw [h.nextId]
  exact lt_nextId_assignId hq t u (hp.mem_iff.1 (List.mem_append_right _ hu))

theorem nextId_tidy (q : Queue) (now : Nat) :
    (q.countSubmitted.tidy now).2.nextId = q.nextId := by
  unfold tidy
  split <;> rfl

/-- A task is turned away, or joins under the id it is answered with. -/
theorem enqueue_joins (q : Queue) (now : Nat) (t : Task) :
    (∃ e, (q.enqueue now t).1 = .error e) ∧ Leaves q (q.enqueue now t).2.2 ∨
      (q.enqueue now t).1 = .ok (q.assignId t).1.id ∧ Joins q t (q.enqueue now t).2.2 := by
  cases hr : q.running with
  | false =>
    rw [enqueue_of_stopped hr]
    exact .inl ⟨⟨_, rfl⟩, ⟨[], List.Perm.refl _⟩, rfl⟩
  | true =>
    have htidy := (moves_tidy q.countSubmitted now).of_count_left
    have hid := nextId_tidy q now
    rw [enqueue_of_running hr]
    dsimp only
    split
    · exact .inl ⟨⟨_, rfl⟩, ⟨_, htidy.waiting⟩, hid⟩
    · -- the id is given out after the late ones have left, which makes no difference to it
      have hsame : ((q.countSubmitted.tidy now).2.assignId t).1 = (q.assignId t).1 ∧
          ((q.countSubmitted.tidy now).2.assignId t).2.nextId = (q.assignId t).2.nextId := by
        unfold assignId
        rw [hid]
        split <;> exact ⟨rfl, rfl⟩
      have hassign := moves_assignId (q.countSubmitted.tidy now).2 t
      have hpush := moves_push ((q.countSubmitted.tidy now).2.assignId t).2 (q.assignId t).1
      right
      rw [hsame.1]
      exact ⟨rfl, ⟨_, (htidy.trans (hassign.trans hpush)).waiting⟩,
        (nextId_push _ _).trans hsame.2⟩

/-- A task without an id is given the next one where it is let in, and none where it is not. -/
theorem enqueue_id (q : Queue) (now : Nat) (ht : t.id = 0) :
    ((q.enqueue now t).1 = .ok q.nextId ∧ (q.enqueue now t).2.2.nextId = q.nextId + 1) ∨
      (∃ e, (q.enqueue now t).1 = .error e) ∧ (q.enqueue now t).2.2.nextId = q.nextId := by
  rcases q.enqueue_joins now t with ⟨herror, hleaves⟩ | ⟨hok, hjoins⟩
  · exact .inr ⟨herror, hleaves.nextId⟩
  · have hassign : q.assignId t = ({ t with id := q.nextId }, { q with nextId := q.nextId + 1 }) :=
      if_pos ht
    have hnext := hjoins.nextId
    rw [hassign] at hok hnext
    exact .inl ⟨hok, hnext⟩

theorem numbered_enqueue (hq : Numbered q) (now : Nat) (ht : q.Unclaimed t) :
    Numbered (q.enqueue now t).2.2 := by
  rcases q.enqueue_joins now t with ⟨-, hleaves⟩ | ⟨-, hjoins⟩
  · exact numbered_of_leaves hq hleaves
  · exact numbered_of_joins hq ht hjoins

theorem Distinct.length_filter_le_one (hq : Distinct q) (id : TaskId) :
    (q.waiting.filter fun t => t.id == id).length ≤ 1 := by
  calc (q.waiting.filter fun t => t.id == id).length
      = q.waiting.countP (fun t => t.id == id) := List.countP_eq_length_filter.symm
    _ = (q.waiting.map (·.id)).count id := by rw [List.count, List.countP_map]; rfl
    _ ≤ 1 := List.nodup_iff_count_le_one.1 hq id

/-- Where no two wait under an id, a call by it drops nothing: what it takes out, it hands back. -/
theorem cancel_drops_nothing_of_one {id : TaskId}
    (h : (q.waiting.filter fun t => t.id == id).length ≤ 1) : (q.cancel id).2.1 = [] := by
  apply List.eq_nil_of_length_eq_zero
  change (q.waiting.filter fun t => t.id == id).dropLast.length = 0
  rw [List.length_dropLast]
  omega

theorem cancel_drops_nothing (hq : Numbered q) (id : TaskId) : (q.cancel id).2.1 = [] :=
  cancel_drops_nothing_of_one (hq.distinct.length_filter_le_one id)

end ChatInference.Queue
