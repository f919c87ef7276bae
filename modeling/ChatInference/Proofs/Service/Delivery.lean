import ChatInference.Proofs.Service.Answers
import ChatInference.Proofs.Service.WholeCalls

/-!
Each outcome is handed out once. A task is in one place at a time, so a call that finds it finds its
own outcome, nothing that is filed or put back takes another task's place, and what is handed out is gone.
Where whole calls are made one after the other, the first that comes after a task is finished is handed its
outcome.
-/

namespace ChatInference

namespace Desk

variable {σ : Type} {d : Desk σ}

/-- Some call has the task in its hands: it is about to be filed, or waited for. -/
def InHand (d : Desk σ) (x : Nat × Collectable) : Prop :=
  x ∈ d.filing ∨ ∃ p ∈ d.polls, p.task = x.1

/-- Where a task can be, and how its outcome is known there. -/
theorem Accounted.cases_of_task (h : Accounted d) {x : Nat × Collectable} (hx : x ∈ d.tasks) :
    d.InHand x ∨ d.service.collectable.get? x.1 = some x.2 ∨ x.1 ∈ d.collected.map (·.1) := by
  -- two entries under one id are the same
  have hone {y : Nat × Collectable} (hy : y ∈ d.tasks) (hid : y.1 = x.1) : y = x :=
    List.inj_on_of_nodup_map h.distinct hy hx hid
  have hplaced : x.1 ∈ d.placed := h.places.mem_iff.1 (List.mem_map_of_mem hx)
  unfold placed at hplaced
  rw [List.mem_append, List.mem_append, List.mem_append] at hplaced
  -- yet to be filed, there to be collected, in the hands of a call, or collected
  rcases hplaced with ((hfiling | hkeys) | hpolls) | hcollected
  · obtain ⟨y, hy, hid⟩ := List.mem_map.1 hfiling
    left
    left
    rw [← hone (h.filed y hy) hid]
    exact hy
  · right
    left
    obtain ⟨c, hc⟩ := Option.isSome_iff_exists.1 (Keyed.mem_keys_iff.1 hkeys)
    rw [hc, ← hone (h.kept x.1 c hc) rfl]
  · obtain ⟨p, hp, hid⟩ := List.mem_map.1 hpolls
    exact .inl (.inr ⟨p, hp, hid⟩)
  · exact .inr (.inr hcollected)

/-- What was handed out for a task is its own outcome. -/
theorem Accounted.own (h : Accounted d) {x : Nat × Collectable} (hx : x ∈ d.tasks)
    {y : Nat × Outcome} (hy : y ∈ d.collected) (hid : y.1 = x.1) :
    d.service.outcomeOf x.2 = some y.2 := by
  obtain ⟨c, hc, hout⟩ := h.delivered y hy
  have hsame : (y.1, c) = x := List.inj_on_of_nodup_map h.distinct hc hx hid
  rw [← hsame]
  exact hout

/-- A task that has come to an outcome: the next call is handed it, or one was. -/
theorem Accounted.finished (h : Accounted d) {x : Nat × Collectable} (hx : x ∈ d.tasks) {o : Outcome}
    (ho : d.service.outcomeOf x.2 = some o) :
    d.InHand x ∨ (x.1, o) ∈ d.collected ∨ d.service.taskResult x.1 =
      (some <$> o, { d.service with collectable := d.service.collectable.erase x.1 }) := by
  rcases h.cases_of_task hx with hin | hget | hcollected
  · exact .inl hin
  · right
    right
    apply Service.taskResult_of_outcome
    rw [Service.outcome?_eq, hget]
    exact ho
  · obtain ⟨y, hy, hid⟩ := List.mem_map.1 hcollected
    obtain rfl : y.2 = o := Option.some.inj ((h.own hx hy hid).symm.trans ho)
    rw [← hid]
    exact .inr (.inl hy)

/-- A task without an outcome: the next call leaves it as it is. -/
theorem Accounted.pending (h : Accounted d) {x : Nat × Collectable} (hx : x ∈ d.tasks)
    (hnone : d.service.outcomeOf x.2 = none) :
    d.InHand x ∨ d.service.taskResult x.1 = (.ok none, d.service) := by
  rcases h.cases_of_task hx with hin | hget | hcollected
  · exact .inl hin
  · exact .inr (Service.taskResult_of_pending hget hnone)
  · -- it cannot have been handed out before there was an outcome
    obtain ⟨y, hy, hid⟩ := List.mem_map.1 hcollected
    rw [h.own hx hy hid] at hnone
    cases hnone

theorem Accounted.not_mem_keys_of_collected (h : Accounted d) {task : Nat}
    (htask : task ∈ d.collected.map (·.1)) : task ∉ d.service.collectable.keys := by
  obtain ⟨-, -, hdisjoint⟩ := List.nodup_append.1 h.nodup
  intro hk
  have hplaced : task ∈ d.filing.map (·.1) ++ d.service.collectable.keys ++ d.polls.map (·.task) :=
    List.mem_append_left _ (List.mem_append_right _ hk)
  exact hdisjoint task hplaced task htask rfl

/-- Nobody finds a task that was collected. -/
theorem Accounted.taskResult_of_collected (h : Accounted d) {task : Nat}
    (htask : task ∈ d.collected.map (·.1)) :
    (d.service.taskResult task).1 = .error (.notFound s!"task {task}") := by
  have hget := Keyed.get?_of_not_mem_keys (h.not_mem_keys_of_collected htask)
  rw [Service.taskResult_of_missing hget]

theorem Serves.not_inHand {s : Service σ} (hs : d.Serves s) (x : Nat × Collectable) :
    ¬d.InHand x := by
  rintro (hfiling | ⟨p, hp, -⟩)
  · rw [hs.filing] at hfiling
    cases hfiling
  · rw [hs.polls] at hp
    cases hp

/-- A task that was not collected can be, and while it has no outcome a call leaves it there. -/
theorem Accounted.taskResult_of_uncollected (h : Accounted d) {s : Service σ} (hs : d.Serves s)
    {task : TaskId} (htask : task ∈ d.tasks.map (·.1)) (hnot : task ∉ d.collected.map (·.1)) :
    (s.collectable.get? task).isSome = true ∧
      (s.outcome? task = none → s.taskResult task = (.ok none, s)) := by
  obtain ⟨⟨_, c⟩, hx, rfl⟩ := List.mem_map.1 htask
  have hplace := (h.cases_of_task hx).resolve_left (hs.not_inHand _)
  have hget := hplace.resolve_right hnot
  rw [hs.service] at hget
  refine ⟨Option.isSome_iff_exists.2 ⟨c, hget⟩, fun hnone => ?_⟩
  rw [Service.outcome?_eq, hget] at hnone
  exact Service.taskResult_of_pending hget hnone

theorem Accounted.lt_words (h : Accounted d) (hfew : d.submissions < firstInline)
    {x : Nat × Collectable} (hx : x ∈ d.tasks) : x.1 < UInt64.size := by
  have hi := h.issued x hx
  have hbelow := h.below
  have habove := h.above
  have hcounted := h.counted
  have hwords : firstInline + firstInline = UInt64.size := rfl
  omega

/-- What a step adds to: nothing that was given out or handed out is forgotten. -/
structure Grown (d d' : Desk σ) : Prop where
  service : d.service.Onward d'.service
  tasks : d.tasks <+: d'.tasks
  collected : d.collected <+: d'.collected

theorem grown_refl (d : Desk σ) : Grown d d :=
  ⟨Service.onward_refl _, List.prefix_rfl, List.prefix_rfl⟩

theorem Grown.trans {d d' d'' : Desk σ} (h : Grown d d') (h' : Grown d' d'') : Grown d d'' :=
  ⟨h.service.trans h'.service, h.tasks.trans h'.tasks, h.collected.trans h'.collected⟩

/-- What a call that waits does once it looks: the outcome is handed out if it is there, and one that
has given up puts the task back. -/
theorem look_of_poll {i : Nat} {p : Poll} (hp : d.polls[i]? = some p) :
    (p.late = true → (d.look i).service.collectable.get? p.task = some (.posted p.ticket)) ∧
      ∀ o, p.late = false → d.service.outcomeOf (.posted p.ticket) = some o →
        (p.task, o) ∈ (d.look i).collected := by
  constructor
  · intro hlate
    rw [look_of_late hp hlate]
    exact (Keyed.get?_set _ _ _ _).trans (if_pos rfl)
  · intro o hlate ho
    rw [look_of_received hp hlate ho]
    exact List.mem_append_right _ (List.mem_singleton_self _)

section

variable [InferenceEngine σ]

theorem grown_step {d d' : Desk σ} (h : Step d d') : Grown d d' := by
  have hshelve (c : Keyed Collectable) : d.service.Onward { d.service with collectable := c } :=
    Service.onward_of_eq List.prefix_rfl rfl rfl
  cases h with
  | submit now id prompt o =>
    have ho := d.service.onward_enter now id prompt o
    unfold submit
    dsimp only
    split
    · exact ⟨ho, List.prefix_rfl, List.prefix_rfl⟩
    · exact ⟨ho, List.prefix_append _ _, List.prefix_rfl⟩
    · exact ⟨ho, List.prefix_rfl, List.prefix_rfl⟩
  | reply text _ =>
    exact ⟨Service.onward_of_eq List.prefix_rfl rfl rfl, List.prefix_append _ _, List.prefix_rfl⟩
  | file i =>
    unfold file
    split
    · exact grown_refl d
    · exact ⟨hshelve _, List.prefix_rfl, List.prefix_rfl⟩
  | take task =>
    unfold take
    split
    · exact grown_refl d
    · exact ⟨hshelve _, List.prefix_rfl, List.prefix_append _ _⟩
    · exact ⟨hshelve _, List.prefix_rfl, List.prefix_rfl⟩
  | look i =>
    unfold look
    split
    · exact grown_refl d
    · split
      · exact ⟨hshelve _, List.prefix_rfl, List.prefix_rfl⟩
      · split
        · exact ⟨Service.onward_refl _, List.prefix_rfl, List.prefix_append _ _⟩
        · exact ⟨Service.onward_refl _, List.prefix_rfl, List.prefix_rfl⟩
  | mail h _ _ => exact ⟨Mailroom.onward_run h, List.prefix_rfl, List.prefix_rfl⟩

theorem grown_run {d d' : Desk σ} (h : Run d d') : Grown d d' := by
  induction h with
  | refl => exact grown_refl d
  | tail _ step ih => exact ih.trans (grown_step step)

/-- In every run of fewer submissions than there are ids for the queue, whatever else goes on: no two
tasks have one id, and nothing that is filed or put back takes another's place. Once a task has come to
an outcome, the next call for it is handed that outcome, unless a call that waits for it has it in hand;
that one hands the outcome out, or puts the task back if it has given up. Before there is an outcome a
call changes nothing. What is handed out is the task's own outcome, it is handed out once, and no later
call finds the task. Whole calls, made one after the other, give out and hand out the same as such a run,
and leave no task in anybody's hands. -/
theorem outcomes_handed_out_once {config : ServiceConfig} {e : σ} {d : Desk σ}
    (h : Run (opened config e) d) (hfew : d.submissions < firstInline) :
    ((d.tasks.map (·.1)).Nodup ∧ ∀ x ∈ d.tasks, x.1 < UInt64.size) ∧
      ((∀ x ∈ d.filing, d.service.collectable.get? x.1 = none) ∧
        ∀ p ∈ d.polls, d.service.collectable.get? p.task = none) ∧
      (∀ x ∈ d.tasks, ∀ o, d.service.outcomeOf x.2 = some o →
        ∀ d', Run d d' → d'.submissions < firstInline →
          d'.InHand x ∨ (x.1, o) ∈ d'.collected ∨ d'.service.taskResult x.1 =
            (some <$> o, { d'.service with collectable := d'.service.collectable.erase x.1 })) ∧
      (∀ x ∈ d.tasks, d.service.outcomeOf x.2 = none →
        d.InHand x ∨ d.service.taskResult x.1 = (.ok none, d.service)) ∧
      (∀ i p, d.polls[i]? = some p →
        (p.task, .posted p.ticket) ∈ d.tasks ∧
          (p.late = true → (d.look i).service.collectable.get? p.task = some (.posted p.ticket)) ∧
          ∀ o, p.late = false → d.service.outcomeOf (.posted p.ticket) = some o →
            (p.task, o) ∈ (d.look i).collected) ∧
      (d.collected.map (·.1)).Nodup ∧
      (∀ x ∈ d.collected, (∃ c, (x.1, c) ∈ d.tasks ∧ d.service.outcomeOf c = some x.2) ∧
        ∀ d', Run d d' → d'.submissions < firstInline →
          (d'.service.taskResult x.1).1 = .error (.notFound s!"task {x.1}")) ∧
      ∀ s calls, d.Serves s → ∃ d', Run d d' ∧ d'.Serves (s.afterAll calls) ∧
        d'.submissions ≤ d.submissions + Service.Call.submissions calls ∧
        d'.tasks.map (·.1) = d.tasks.map (·.1) ++ s.givenBy calls ∧
        d'.collected = d.collected ++ s.handedBy calls := by
  have hd : Accounted d := accounted_run (accounted_opened config e) h hfew
  have hcollected : (d.collected.map (·.1)).Nodup := (List.nodup_append.1 hd.nodup).2.1
  refine ⟨⟨hd.distinct, fun x hx => hd.lt_words hfew hx⟩, ⟨?_, ?_⟩, ?_, ?_, ?_, hcollected, ?_,
    fun s calls hs => serves_afterAll hs calls⟩
  · intro x hx
    exact Keyed.get?_of_not_mem_keys (hd.not_mem_keys_of_filing hx)
  · intro p hp
    exact Keyed.get?_of_not_mem_keys (hd.not_mem_keys_of_polls hp)
  · intro x hx o ho d' hrun hfew'
    have hgrown := grown_run hrun
    have hd' : Accounted d' := accounted_run hd hrun hfew'
    exact hd'.finished (hgrown.tasks.subset hx) (hgrown.service.outcomeOf ho)
  · intro x hx hnone
    exact hd.pending hx hnone
  · intro i p hp
    exact ⟨hd.polled p (List.mem_of_getElem? hp), look_of_poll hp⟩
  · intro x hx
    refine ⟨hd.delivered x hx, fun d' hrun hfew' => ?_⟩
    have hd' : Accounted d' := accounted_run hd hrun hfew'
    exact hd'.taskResult_of_collected (List.mem_map_of_mem ((grown_run hrun).collected.subset hx))

end

/-- A session is open on a model, and nothing has been submitted. -/
def ready : Desk Mailroom.EchoingEngine :=
  let start : Service Mailroom.EchoingEngine := .ofConfig Mailroom.oneSlot {}
  { mailroom := { service := ((start.load "a" none).2.createSession 0 none).2 } }

/-- One turn has the slot, and a call has waited long enough for the outcome of the other. -/
def waited : Desk Mailroom.EchoingEngine :=
  ((((ready.submit 1 1 "Hi" {}).submit 2 1 "And you" {}).file 0).take 1).look 0

/-- The queued turn is cancelled before the call puts it back, and the other one ends. -/
def settled : Desk Mailroom.EchoingEngine :=
  let q := waited.service.queue
  let m := (waited.mailroom.withdraw (q.cancel 1).1.toList (q.cancel 1).2.2).answer 0
  ((({ waited with mailroom := m }).look 0).reply "Hi").file 0

theorem outcomes_handed_out_once_settled :
    Run (opened Mailroom.oneSlot {}) settled ∧ settled.submissions < firstInline ∧
      settled.tasks.map (·.1) = [1, firstInline] ∧
      settled.service.taskResult 1 = (.error .cancelled,
        { settled.service with collectable := settled.service.collectable.erase 1 }) ∧
      (((settled.take 1).look 0).service.taskResult 1).1 = .error (.notFound "task 1") := by
  let start : Desk Mailroom.EchoingEngine := opened Mailroom.oneSlot {}
  have hs : start.service.Undisturbed ready.service := ⟨rfl, rfl, rfl, rfl, rfl⟩
  have hready : Step start ready :=
    .mail (Mailroom.run_one (.elsewhere hs ready.service.collectable)) rfl rfl
  have hwaited : Run start waited :=
    (((((Relation.ReflTransGen.single hready).tail (.submit 1 1 "Hi" {})).tail
      (.submit 2 1 "And you" {})).tail (.file 0)).tail (.take 1)).tail (.look 0)
  have hcancelled := (Mailroom.run_one (.cancelTask (m := waited.mailroom) 1)).tail (.answer 0)
  have hrun : Run start settled :=
    (((hwaited.tail (.mail hcancelled rfl rfl)).tail (.look 0)).tail
      (.reply "Hi" Nat.one_pos)).tail (.file 0)
  have hfew : settled.submissions < firstInline := by decide
  have htask : (1, .posted 0) ∈ settled.tasks := List.mem_cons_self
  have hmail : settled.service.outcomeOf (.posted 0) = some (.error .cancelled) := rfl
  have hnobody : ¬settled.InHand (1, .posted 0) := by
    rintro (hin | ⟨p, hp, -⟩)
    · cases hin
    · cases hp
  have h := outcomes_handed_out_once hrun hfew
  have hresult := ((h.2.2.1 _ htask _ hmail settled .refl hfew).resolve_left hnobody).resolve_left nofun
  -- the call takes the task, and has its outcome at once
  have hcollected : Run start ((settled.take 1).look 0) := (hrun.tail (.take 1)).tail (.look 0)
  have h' := outcomes_handed_out_once hcollected hfew
  have hgone := (h'.2.2.2.2.2.2.1 (1, .error .cancelled) List.mem_cons_self).2 _ .refl hfew
  exact ⟨hrun, hfew, rfl, hresult, hgone⟩

section

variable [InferenceEngine σ] {s : Service σ} {task : TaskId}

/-- Whole calls keep the desk accounted for, as long as there are ids. -/
theorem accounted_afterAll (h : Accounted d) (hs : d.Serves s) (calls : List Service.Call)
    (hfew : d.submissions + Service.Call.submissions calls < firstInline) :
    ∃ d', Accounted d' ∧ Grown d d' ∧ d'.Serves (s.afterAll calls) ∧
      d'.submissions ≤ d.submissions + Service.Call.submissions calls ∧
      d'.tasks.map (·.1) = d.tasks.map (·.1) ++ s.givenBy calls ∧
      d'.collected = d.collected ++ s.handedBy calls := by
  obtain ⟨d', hrun, hs', hsubmissions, htasks, hcollected⟩ := serves_afterAll hs calls
  exact ⟨d', accounted_run h hrun (Nat.lt_of_le_of_lt hsubmissions hfew), grown_run hrun, hs',
    hsubmissions, htasks, hcollected⟩

/-- Only a call for its outcome hands out the outcome of a task. -/
theorem result_mem_of_handedBy {calls : List Service.Call} {x : TaskId × Outcome}
    (hx : x ∈ s.handedBy calls) : .result x.1 ∈ calls := by
  induction calls generalizing s with
  | nil => cases hx
  | cons c calls ih =>
    rcases List.mem_append.1 hx with hnow | hlater
    · cases c with
      | result task =>
        obtain ⟨o, -, rfl⟩ := Option.map_eq_some_iff.1 (Option.mem_toList.1 hnow)
        exact List.mem_cons_self
      | submit now id prompt o => cases hnow
      | cancel task => cases hnow
      | close id => cases hnow
      | work now => cases hnow
    · exact List.mem_cons_of_mem _ (ih hlater)

/-- A call gives out no id under which something can be collected. -/
theorem Accounted.get?_of_given (h : Accounted d) (hs : d.Serves s) {c : Service.Call}
    (hfew : d.submissions + Service.Call.submissions [c] < firstInline) (htask : task ∈ s.given c) :
    s.collectable.get? task = none := by
  obtain ⟨d', hd', -, -, -, htasks, -⟩ := accounted_afterAll h hs [c] hfew
  by_contra hfound
  obtain ⟨x, hget⟩ := Option.ne_none_iff_exists'.1 hfound
  rw [← hs.service] at hget
  -- what can be collected has an id already, and the new one is another
  have hdistinct := hd'.distinct
  rw [htasks] at hdistinct
  obtain ⟨-, -, hdisjoint⟩ := List.nodup_append.1 hdistinct
  exact hdisjoint task (List.mem_map_of_mem (h.kept task x hget)) task
    (List.mem_append_left _ htask) rfl

/-- An outcome stays where it can be collected until a call comes for it. -/
theorem Accounted.taskResult_afterAll (h : Accounted d) (hs : d.Serves s) {calls : List Service.Call}
    (hfew : d.submissions + Service.Call.submissions calls < firstInline) {o : Outcome}
    (ho : s.outcome? task = some o) (hother : ∀ c ∈ calls, c ≠ .result task) :
    (s.afterAll calls).taskResult task = (some <$> o,
      { s.afterAll calls with collectable := (s.afterAll calls).collectable.erase task }) := by
  obtain ⟨d', hd', hgrown, hs', -, -, hcollected⟩ := accounted_afterAll h hs calls hfew
  rw [← hs.service, Service.outcome?_eq] at ho
  obtain ⟨c, hget, hout⟩ := Option.bind_eq_some_iff.1 ho
  have htask : (task, c) ∈ d'.tasks := hgrown.tasks.subset (h.kept task c hget)
  have hnot : (task, o) ∉ d'.collected := by
    intro hmem
    rw [hcollected] at hmem
    rcases List.mem_append.1 hmem with hold | hnew
    · exact h.not_mem_keys_of_collected (List.mem_map_of_mem hold) (Keyed.mem_keys_of_get? hget)
    · exact hother _ (result_mem_of_handedBy hnew) rfl
  have hfinished := hd'.finished htask (hgrown.service.outcomeOf hout)
  rw [← hs'.service]
  exact (hfinished.resolve_left (hs'.not_inHand _)).resolve_left hnot

/-- Calls made one after the other, from any point of a run at which no task is in anybody's hands. The
ids that are given out are different, and a submission files its task where nothing is. A task that was not
collected can be: before there is an outcome a call for it changes nothing, and once there is one, the first
call for it is handed that outcome, whatever else was called in between. No outcome is handed out twice, and
every later call for the task finds none. -/
theorem whole_calls_hand_out_once {config : ServiceConfig} {e : σ} (h : Run (opened config e) d)
    (hs : d.Serves s) (calls : List Service.Call)
    (hfew : d.submissions + Service.Call.submissions calls < firstInline) :
    let s' := s.afterAll calls
    let ids := d.tasks.map (·.1) ++ s.givenBy calls
    let collected := (d.collected ++ s.handedBy calls).map (·.1)
    ids.Nodup ∧
      (∀ before c after, calls = before ++ c :: after → ∀ task ∈ (s.afterAll before).given c,
        (s.afterAll before).collectable.get? task = none) ∧
      (∀ task ∈ ids, task ∉ collected → (s'.collectable.get? task).isSome = true ∧
        (s'.outcome? task = none → s'.taskResult task = (.ok none, s'))) ∧
      (∀ before after, calls = before ++ after → ∀ task o,
        (s.afterAll before).outcome? task = some o → (∀ c ∈ after, c ≠ .result task) →
          s'.taskResult task =
            (some <$> o, { s' with collectable := s'.collectable.erase task })) ∧
      collected.Nodup ∧
      ∀ task ∈ collected, (s'.taskResult task).1 = .error (.notFound s!"task {task}") := by
  intro s' ids collected
  have hd : Accounted d := accounted_run (accounted_opened config e) h (by omega)
  obtain ⟨d', hd', -, hs', -, htasks, hcollected⟩ := accounted_afterAll hd hs calls hfew
  have hids : d'.tasks.map (·.1) = ids := htasks
  have hhanded : d'.collected.map (·.1) = collected := congrArg _ hcollected
  rw [← hids, ← hhanded]
  refine ⟨hd'.distinct, ?_, fun task => hd'.taskResult_of_uncollected hs', ?_,
    (List.nodup_append.1 hd'.nodup).2.1, fun task htask => ?_⟩
  · rintro before c after rfl task htask
    have hcount := Service.Call.submissions_append before (c :: after)
    have hnext := Service.Call.submissions_append [c] after
    rw [List.singleton_append] at hnext
    obtain ⟨d₁, hd₁, -, hs₁, hsubmissions, -, -⟩ := accounted_afterAll hd hs before (by omega)
    exact hd₁.get?_of_given hs₁ (by omega) htask
  · rintro before after rfl task o ho hother
    have hcount := Service.Call.submissions_append before after
    obtain ⟨d₁, hd₁, -, hs₁, hsubmissions, -, -⟩ := accounted_afterAll hd hs before (by omega)
    have hlast : s' = (s.afterAll before).afterAll after := List.foldl_append
    rw [hlast]
    exact hd₁.taskResult_afterAll hs₁ (by omega) ho hother
  · have hgone := hd'.taskResult_of_collected htask
    rwa [hs'.service] at hgone

/-- A turn that has the slot is collected once. -/
example : ready.service.handedBy [.submit 1 1 "Hi" {}, .result firstInline, .result firstInline] =
    [(firstInline, .ok "Hi")] := by rfl

end

end Desk

end ChatInference
